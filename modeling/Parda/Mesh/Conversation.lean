import Parda.Mesh.LocalCrates
import Parda.Mesh.Transport

/-!
# Conversations in both directions

Two endpoints of one conversation, each with its own relay, and sync sessions between
the relays over links with a queue each way. Both sides derive their addresses from one
shared sequence: the bundle a side sends at index `k` has the address at which the same
side polls for the other's bundle `k`.
-/

namespace Parda.Mesh

open Protocol

structure Endpoint where
  transport : MeshTransport
  store : RelayStore := {}

/-- A link: each side's session and the messages in flight towards it. -/
structure Link where
  pc : Side → SyncPc := fun _ => .sweep
  queue : Side → List SyncMessage := fun _ => []

/-- The endpoints and their links, with a log of what each side has sent. -/
structure Conversation where
  endpoint : Side → Endpoint
  link : ℕ → Link := fun _ => {}
  sent : Side → List SentBundle := fun _ => []

/-- `send x k`: side `x` sends an envelope composed when its counter was `k`.
`sync j x`: side `x`'s session on link `j` takes its next message or runs its next local
section. -/
inductive ConversationLabel where
  | send (x : Side) (k : ℕ) (wrapMs admitMs : UInt64) (envelope : MessageEnvelope)
  | receive (x : Side) (rng : PollRng) (order : IterOrder)
  | sync (j : ℕ) (x : Side) (nowMs : UInt64) (order : IterOrder)
  | broken (j : ℕ) (x : Side) (error : MeshError)
  | sweep (x : Side) (order : IterOrder) (nowMs : UInt64)

namespace Conversation

def setEndpoint (w : Conversation) (x : Side) (e : Endpoint) : Conversation :=
  { w with endpoint := Function.update w.endpoint x e }

def setLink (w : Conversation) (j : ℕ) (l : Link) : Conversation :=
  { w with link := Function.update w.link j l }

def logSent (w : Conversation) (x : Side) (b : SentBundle) : Conversation :=
  { w with sent := Function.update w.sent x (b :: w.sent x) }

def sendStep (c : Crates) (cfg : Side → RelayConfig) (w : Conversation) (x : Side) (k : ℕ)
    (wrapMs admitMs : UInt64) (envelope : MessageEnvelope) : Conversation :=
  let e := w.endpoint x
  if k ≤ e.transport.sendCounter then
    let envelope := e.transport.composeAt c k envelope
    match e.transport.send c (cfg x) wrapMs admitMs e.store envelope,
      wrap c wrapMs envelope (e.transport.tagKey.addressFor c k) with
    | .ok (t, s), .ok bytes => (w.logSent x ⟨k, bytes, envelope⟩).setEndpoint x ⟨t, s⟩
    | _, _ => w
  else w

/-- One session event, with the message it sends put in flight to the other side. -/
def sessionEvent (c : Crates) (cfg : Side → RelayConfig) (w : Conversation) (j : ℕ) (x : Side)
    (queue : Side → List SyncMessage) (event : SyncEvent) : Conversation :=
  let e := w.endpoint x
  let next := syncStep c (cfg x) e.store ((w.link j).pc x) event
  (w.setEndpoint x ⟨e.transport, next.2.1⟩).setLink j
    ⟨Function.update (w.link j).pc x next.1,
      Function.update queue x.other (queue x.other ++ next.2.2.toList)⟩

def syncSession (c : Crates) (cfg : Side → RelayConfig) (w : Conversation) (j : ℕ) (x : Side)
    (nowMs : UInt64) (order : IterOrder) : Conversation :=
  let l := w.link j
  if (l.pc x).waiting then
    match l.queue x with
    | [] => w
    | message :: rest =>
      w.sessionEvent c cfg j x (Function.update l.queue x rest) (.receive nowMs (.ok message))
  else w.sessionEvent c cfg j x l.queue (.advance nowMs order)

def step (c : Crates) (cfg : Side → RelayConfig) (w : Conversation) :
    ConversationLabel → Conversation
  | .send x k wrapMs admitMs envelope => w.sendStep c cfg x k wrapMs admitMs envelope
  | .receive x rng order =>
    let e := w.endpoint x
    let r := e.transport.receive c rng order e.store
    w.setEndpoint x ⟨r.1, r.2.1⟩
  | .sync j x nowMs order => w.syncSession c cfg j x nowMs order
  | .broken j x error => w.sessionEvent c cfg j x (w.link j).queue (.broken error)
  | .sweep x order nowMs =>
    let e := w.endpoint x
    w.setEndpoint x ⟨e.transport, e.store.sweepExpired order nowMs⟩

/-- The tag key a side derives from its own secret and the other's public key. -/
def tagKeyOf (c : Crates) (secret : Side → Bytes32) (x : Side) : TagKey :=
  (DeadDropKeyPair.generate c (secret x)).deriveTagKey c
    (DeadDropKeyPair.generate c (secret x.other)).publicKey

def start (c : Crates) (secret : Side → Bytes32) (window decoys : Side → ℕ) : Conversation where
  endpoint x :=
    { transport :=
        { tagKey := tagKeyOf c secret x, window := window x, decoysPerReal := decoys x } }

/-- At a receive, every envelope returned was sent by the other side, and no bundle the
side sent itself leaves its relay. -/
def DirectionSafe (c : Crates) (w : Conversation) : ConversationLabel → Prop
  | .receive x rng order =>
    let e := w.endpoint x
    let r := e.transport.receive c rng order e.store
    (∀ claim ∈ r.2.2, ∃ b ∈ w.sent x.other,
      b.bytes = claim.bytes ∧ b.envelope = claim.envelope) ∧
    ∀ b ∈ w.sent x, e.store.Holds b.bytes → r.2.1.Holds b.bytes
  | _ => True

/-- At a receive, no bundle the side sent itself and still stores has its index in the
polled window, nor its address among the decoys drawn. -/
def OwnOutsideWindow (c : Crates) (w : Conversation) : ConversationLabel → Prop
  | .receive x rng _ =>
    let t := (w.endpoint x).transport
    ∀ b ∈ w.sent x, (w.endpoint x).store.Holds b.bytes →
      ¬(t.lowWatermark ≤ b.index % 2 ^ 64 ∧ b.index % 2 ^ 64 < t.windowEnd) ∧
      t.tagKey.addressFor c b.index ∉ rng.decoys t.window t.decoysPerReal
  | _ => True

/-- The bytes of some bundle that some side has sent. -/
def IsSent (w : Conversation) (bytes : Bytes) : Prop :=
  ∃ x, ∃ b ∈ w.sent x, b.bytes = bytes

/-- An endpoint that holds the tag key `t` and stores only bundles that satisfy `P`. -/
structure EndpointInv (c : Crates) (cfg : RelayConfig) (t : TagKey) (P : Bytes → Prop)
    (e : Endpoint) : Prop where
  tagKey : e.transport.tagKey = t
  accounted : RelayStore.Accounted c cfg e.store
  stored : e.store.Within P

/-- What every reachable conversation with the tag key `t` satisfies. -/
structure Inv (c : Crates) (cfg : Side → RelayConfig) (t : TagKey) (w : Conversation) : Prop where
  endpoints : ∀ x, EndpointInv c (cfg x) t w.IsSent (w.endpoint x)
  sessions : ∀ j x, ((w.link j).pc x).Within w.IsSent
  queues : ∀ j x, ∀ message ∈ (w.link j).queue x, message.Within w.IsSent
  framed : ∀ x, ∀ b ∈ w.sent x, unwrap c b.bytes = .ok (t.addressFor c b.index, b.envelope)

variable {c : Crates} {cfg : Side → RelayConfig} {t : TagKey} {w : Conversation}

lemma tagKeyOf_eq (h : DhSymmetric c) (secret : Side → Bytes32) (x : Side) :
    tagKeyOf c secret x = tagKeyOf c secret .a := by
  cases x with
  | a => rfl
  | b => exact deriveTagKey_comm h _ _

lemma inv_start (h : DhSymmetric c) (secret : Side → Bytes32) (window decoys : Side → ℕ) :
    Inv c cfg (tagKeyOf c secret .a) (start c secret window decoys) where
  endpoints x := by
    refine ⟨tagKeyOf_eq h secret x, RelayStore.accounted_empty, ?_⟩
    rintro bytes ⟨h, b, hb, -⟩
    simp [start] at hb
  sessions _ _ := trivial
  queues _ _ _ hm := by cases hm
  framed _ _ hb := by cases hb

lemma Inv.setEndpoint (hw : Inv c cfg t w) (x : Side) {e : Endpoint}
    (he : EndpointInv c (cfg x) t w.IsSent e) : Inv c cfg t (w.setEndpoint x e) where
  endpoints y := by
    change EndpointInv c (cfg y) t w.IsSent (Function.update w.endpoint x e y)
    by_cases hy : y = x
    · subst hy
      rw [Function.update_self]
      exact he
    · rw [Function.update_of_ne hy]
      exact hw.endpoints y
  sessions := hw.sessions
  queues := hw.queues
  framed := hw.framed

lemma mem_logSent {x y : Side} {b d : SentBundle} :
    d ∈ (w.logSent x b).sent y ↔ (y = x ∧ d = b) ∨ d ∈ w.sent y := by
  change d ∈ Function.update w.sent x (b :: w.sent x) y ↔ _
  by_cases hy : y = x
  · subst hy
    rw [Function.update_self]
    simp
  · rw [Function.update_of_ne hy]
    simp [hy]

/-- Logging a framed bundle as sent. -/
lemma Inv.logSent (hw : Inv c cfg t w) (x : Side) {b : SentBundle}
    (hb : unwrap c b.bytes = .ok (t.addressFor c b.index, b.envelope)) :
    Inv c cfg t (w.logSent x b) := by
  have hmono : ∀ bytes, w.IsSent bytes → (w.logSent x b).IsSent bytes := by
    rintro bytes ⟨y, d, hd, rfl⟩
    exact ⟨y, d, mem_logSent.mpr (Or.inr hd), rfl⟩
  refine ⟨fun y => ⟨(hw.endpoints y).tagKey, (hw.endpoints y).accounted,
      fun bytes hh => hmono _ ((hw.endpoints y).stored bytes hh)⟩,
    fun j y => (hw.sessions j y).mono hmono, fun j y m hm => (hw.queues j y m hm).mono hmono, ?_⟩
  intro y d hd
  rcases mem_logSent.mp hd with ⟨-, rfl⟩ | hd
  · exact hb
  · exact hw.framed y d hd

lemma Inv.setLink (hw : Inv c cfg t w) (j : ℕ) {l : Link} (hpc : ∀ x, (l.pc x).Within w.IsSent)
    (hqueue : ∀ x, ∀ message ∈ l.queue x, message.Within w.IsSent) :
    Inv c cfg t (w.setLink j l) where
  endpoints := hw.endpoints
  sessions i x := by
    change ((Function.update w.link j l i).pc x).Within w.IsSent
    by_cases hi : i = j
    · subst hi
      rw [Function.update_self]
      exact hpc x
    · rw [Function.update_of_ne hi]
      exact hw.sessions i x
  queues i x message hm := by
    change message ∈ (Function.update w.link j l i).queue x at hm
    by_cases hi : i = j
    · subst hi
      rw [Function.update_self] at hm
      exact hqueue x message hm
    · rw [Function.update_of_ne hi] at hm
      exact hw.queues i x message hm
  framed := hw.framed

lemma Inv.sessionEvent (hw : Inv c cfg t w) (j : ℕ) (x : Side) {queue : Side → List SyncMessage}
    {event : SyncEvent} (hqueue : ∀ y, ∀ message ∈ queue y, message.Within w.IsSent)
    (hevent : event.Within w.IsSent) : Inv c cfg t (w.sessionEvent c cfg j x queue event) := by
  obtain ⟨hkey, hacc, hin⟩ := hw.endpoints x
  obtain ⟨hpc, hstore, hsent⟩ :=
    syncStep_within c (cfg x) hin (hw.sessions j x) hevent
  have he : EndpointInv c (cfg x) t w.IsSent ⟨(w.endpoint x).transport,
      (syncStep c (cfg x) (w.endpoint x).store ((w.link j).pc x) event).2.1⟩ :=
    ⟨hkey, syncStep_accounted hacc _ _, hstore⟩
  refine (hw.setEndpoint x he).setLink j ?_ ?_
  · intro y
    change (Function.update (w.link j).pc x _ y).Within w.IsSent
    by_cases hy : y = x
    · subst hy
      rw [Function.update_self]
      exact hpc
    · rw [Function.update_of_ne hy]
      exact hw.sessions j y
  · intro y message hm
    change message ∈ Function.update queue x.other _ y at hm
    by_cases hy : y = x.other
    · subst hy
      rw [Function.update_self] at hm
      rcases List.mem_append.mp hm with hm | hm
      · exact hqueue _ message hm
      · exact hsent message (Option.mem_toList.mp hm)
    · rw [Function.update_of_ne hy] at hm
      exact hqueue y message hm

lemma Inv.syncSession (hw : Inv c cfg t w) (j : ℕ) (x : Side) (nowMs : UInt64)
    (order : IterOrder) : Inv c cfg t (w.syncSession c cfg j x nowMs order) := by
  unfold Conversation.syncSession
  by_cases hwait : ((w.link j).pc x).waiting = true
  · simp only [hwait, if_true]
    cases hq : (w.link j).queue x with
    | nil => exact hw
    | cons message rest =>
      have hall := hw.queues j x
      rw [hq] at hall
      refine hw.sessionEvent j x ?_ (hall message List.mem_cons_self)
      intro y m hm
      by_cases hy : y = x
      · subst hy
        rw [Function.update_self] at hm
        exact hall m (List.mem_cons_of_mem _ hm)
      · rw [Function.update_of_ne hy] at hm
        exact hw.queues j y m hm
  · simp only [hwait]
    exact hw.sessionEvent j x (hw.queues j) trivial

lemma Inv.sendStep (hframe : FramingLaws c) (hw : Inv c cfg t w) (x : Side) (k : ℕ)
    (wrapMs admitMs : UInt64) (envelope : MessageEnvelope) :
    Inv c cfg t (w.sendStep c cfg x k wrapMs admitMs envelope) := by
  obtain ⟨hkey, hacc, -⟩ := hw.endpoints x
  unfold Conversation.sendStep
  by_cases hk : k ≤ (w.endpoint x).transport.sendCounter
  · simp only [hk, if_true]
    split
    · rename_i t' s' bytes hsend hwrap
      obtain ⟨had, hun, rfl⟩ := MeshTransport.send_composeAt hframe hsend hwrap
      rw [hkey] at hun
      have hlog := hw.logSent x (b := ⟨k, bytes, _⟩) hun
      exact hlog.setEndpoint x ⟨hkey, hacc.admitChecked had,
        (hlog.endpoints x).stored.admitChecked
          ⟨x, _, mem_logSent.mpr (Or.inl ⟨rfl, rfl⟩), rfl⟩ had⟩
    · exact hw
  · simp only [hk, if_false]
    exact hw

lemma inv_step (hframe : FramingLaws c) (w : Conversation) (label : ConversationLabel)
    (hw : Inv c cfg t w) : Inv c cfg t (step c cfg w label) := by
  cases label with
  | send x k wrapMs admitMs envelope => exact hw.sendStep hframe x k wrapMs admitMs envelope
  | receive x rng order =>
    obtain ⟨hkey, hacc, hin⟩ := hw.endpoints x
    exact hw.setEndpoint x ⟨hkey, hacc.removeAll _, hin.removeAll _⟩
  | sync j x nowMs order => exact hw.syncSession j x nowMs order
  | broken j x error => exact hw.sessionEvent j x (hw.queues j) trivial
  | sweep x order nowMs =>
    obtain ⟨hkey, hacc, hin⟩ := hw.endpoints x
    exact hw.setEndpoint x ⟨hkey, hacc.removeAll _, hin.removeAll _⟩

lemma directionSafe_iff_ownOutsideWindow (hdist : DistinctAddresses c t) (w : Conversation)
    (label : ConversationLabel) (hw : Inv c cfg t w) :
    DirectionSafe c w label ↔ OwnOutsideWindow c w label := by
  cases label with
  | receive x rng order =>
    obtain ⟨hkey, hacc, hin⟩ := hw.endpoints x
    have hdist' : DistinctAddresses c (w.endpoint x).transport.tagKey := by
      rw [hkey]
      exact hdist
    have hpolled := MeshTransport.addressFor_mem_pollSet_iff hdist' rng
    have hkept : ∀ b ∈ w.sent x, (w.endpoint x).store.Holds b.bytes →
        (((w.endpoint x).transport.receive c rng order (w.endpoint x).store).2.1.Holds b.bytes ↔
          (w.endpoint x).transport.tagKey.addressFor c b.index ∉
            (w.endpoint x).transport.pollSet c rng) := by
      intro b hb hstored
      have hun := hw.framed x b hb
      rw [← hkey] at hun
      exact MeshTransport.holds_receive_iff hacc.decoded hun hstored
    constructor
    · rintro ⟨-, hsafe⟩ b hb hstored
      have hnot := (hkept b hb hstored).mp (hsafe b hb hstored)
      rw [hpolled, not_or] at hnot
      exact hnot
    · intro hout
      have hsafe : ∀ b ∈ w.sent x, (w.endpoint x).store.Holds b.bytes →
          (w.endpoint x).transport.tagKey.addressFor c b.index ∉
            (w.endpoint x).transport.pollSet c rng := by
        intro b hb hstored
        rw [hpolled, not_or]
        exact hout b hb hstored
      refine ⟨?_, fun b hb hstored => (hkept b hb hstored).mpr (hsafe b hb hstored)⟩
      intro claim hclaim
      obtain ⟨hstored, hle, hlt, hun⟩ := (MeshTransport.mem_claims hdist' hacc.decoded).mp hclaim
      obtain ⟨y, b, hb, hbytes⟩ := hin claim.bytes hstored
      have hframed := hw.framed y b hb
      rw [hbytes, hun, hkey] at hframed
      simp only [Except.ok.injEq, Prod.mk.injEq] at hframed
      obtain ⟨haddr, henv⟩ := hframed
      by_cases hy : y = x
      · subst hy
        have hnot := hsafe b hb (by rwa [hbytes])
        rw [hkey, ← haddr, ← hkey] at hnot
        exact absurd (MeshTransport.addressFor_mem_pollSet hle hlt) hnot
      · have hother : y = x.other := by
          cases x with
          | _ => cases y with
            | _ => first | rfl | exact absurd rfl hy
        subst hother
        exact ⟨b, hb, hbytes, henv.symm⟩
  | _ => exact Iff.rfl

/-- A run is direction-safe exactly when no receive of it runs over a bundle of its own
side. -/
theorem everyStep_directionSafe_iff (hdh : DhSymmetric c) (hframe : FramingLaws c)
    (secret : Side → Bytes32) (hdist : DistinctAddresses c (tagKeyOf c secret .a))
    (cfg : Side → RelayConfig) (window decoys : Side → ℕ) (labels : List ConversationLabel) :
    Machine.EveryStep (step c cfg) (DirectionSafe c) (start c secret window decoys) labels ↔
      Machine.EveryStep (step c cfg) (OwnOutsideWindow c) (start c secret window decoys) labels :=
  Machine.everyStep_congr (inv_step hframe) (directionSafe_iff_ownOutsideWindow hdist)
    (inv_start hdh secret window decoys) labels

/-- A claim at a side whose peer has sent nothing is not direction-safe. -/
lemma not_directionSafe_of_claim {x : Side} {rng : PollRng} {order : IterOrder} {claim : Claim}
    (hclaim : claim ∈ (w.endpoint x).transport.claims c rng order (w.endpoint x).store)
    (hsent : w.sent x.other = []) : ¬DirectionSafe c w (.receive x rng order) := by
  rintro ⟨hother, -⟩
  obtain ⟨b, hb, -⟩ := hother claim hclaim
  rw [hsent] at hb
  cases hb

section Loopback

/-- Side `a` sends its first message and polls before any sync. -/
def loopbackRun : List ConversationLabel :=
  [.send .a 0 1000 1001 (sampleEnvelope 42), .receive .a samplePollRng .insertion]

def loopbackStart : Conversation :=
  start localCrates (fun _ => List.Vector.replicate 32 7) (fun _ => defaultAddressWindow)
    (fun _ => defaultDecoysPerReal)

/-- The conversation once side `a` has sent. -/
def loopbackSent : Conversation :=
  step localCrates (fun _ => {}) loopbackStart (.send .a 0 1000 1001 (sampleEnvelope 42))

/-- Side `a` receives its own message: its peer has sent nothing. -/
theorem not_directionSafe_loopback :
    ¬Machine.EveryStep (step localCrates fun _ => {}) (DirectionSafe localCrates) loopbackStart
      loopbackRun := by
  rintro ⟨-, hsafe, -⟩
  have hclaims : ((loopbackSent.endpoint .a).transport.claims localCrates samplePollRng .insertion
      (loopbackSent.endpoint .a).store).map Claim.index = [0] := by decide +kernel
  have hsent : loopbackSent.sent (Side.other .a) = [] := by decide +kernel
  obtain ⟨claim, hclaim, -⟩ := List.mem_map.mp (hclaims ▸ List.mem_singleton_self 0)
  exact not_directionSafe_of_claim (w := loopbackSent) hclaim hsent hsafe

theorem everyStep_directionSafe_iff_loopback :
    Machine.EveryStep (step localCrates fun _ => {}) (DirectionSafe localCrates) loopbackStart
        loopbackRun ↔
      Machine.EveryStep (step localCrates fun _ => {}) (OwnOutsideWindow localCrates) loopbackStart
        loopbackRun :=
  everyStep_directionSafe_iff localCrates_dhSymmetric localCrates_framing _
    (localCrates_distinct _) _ _ _ loopbackRun

end Loopback

end Conversation

end Parda.Mesh
