import Mathlib.Data.Multiset.Range
import Parda.Mixnode.Mixing

/-!
# The journey of a packet

What becomes of the packets that are handed to the mix nodes, whatever else is posted to
them: every packet is at one place and ends once, and one that was built for a path of
the nodes goes along the path, waits its delays and does at the end what its tag says.
-/

namespace Parda.Mixnode.Mixnet

open Protocol Machine

section Conservation

variable {n : NodeCrates} {j : PayloadCrates} {nodes : List MixNode} {w : Mixes}

namespace Mixes

@[simp] lemma nowNs_finish (w : Mixes) (origin : ℕ) (ending : Ending) :
    (w.finish origin ending).nowNs = w.nowNs := rfl

@[simp] lemma sent_finish (w : Mixes) (origin : ℕ) (ending : Ending) :
    (w.finish origin ending).sent = w.sent := rfl

end Mixes

lemma origin_receivePacket {nowNs : ℕ} {p : Posting} {task : MixTask}
    (h : receivePacket n nodes nowNs p = .ok task) : task.origin = p.origin := by
  unfold receivePacket at h
  split at h
  · cases h
  · split at h
    · cases h
    · cases h
      rfl

lemma origin_runTask {nowNs : ℕ} {t : MixTask} {p : Posting} (h : runTask j nowNs t = .ok p) :
    p.origin = t.origin := by
  unfold runTask at h
  split at h <;> cases h
  rfl

/-- What a step can do: pass time, take a packet in, or move one packet to its next place. -/
inductive Mixes.Effect (n : NodeCrates) (j : PayloadCrates) (nodes : List MixNode) (w : Mixes) :
    Mixes → Prop where
  | still (ns : ℕ) : Effect n j nodes w { w with nowNs := w.nowNs + ns }
  | sent (address : String) (packetBytes : Bytes) : Effect n j nodes w (w.send address packetBytes)
  | received (k : ℕ) (p : Posting) (hp : w.posts[k]? = some p) (task : MixTask)
      (h : receivePacket n nodes w.nowNs p = .ok task) :
      Effect n j nodes w { w with posts := w.posts.eraseIdx k, tasks := task :: w.tasks }
  | stopped (k : ℕ) (p : Posting) (hp : w.posts[k]? = some p) (ending : Ending)
      (h : receivePacket n nodes w.nowNs p = .error ending ∨ ending = .lost) :
      Effect n j nodes w ({ w with posts := w.posts.eraseIdx k }.finish p.origin ending)
  | ran (k : ℕ) (t : MixTask) (ht : w.tasks[k]? = some t) (hdue : t.dueNs ≤ w.nowNs) (p : Posting)
      (h : runTask j w.nowNs t = .ok p) :
      Effect n j nodes w { w with tasks := w.tasks.eraseIdx k, posts := p :: w.posts }
  | finished (k : ℕ) (t : MixTask) (ht : w.tasks[k]? = some t) (ending : Ending)
      (h : t.dueNs ≤ w.nowNs ∧ runTask j w.nowNs t = .error ending ∨ ending = .lost) :
      Effect n j nodes w ({ w with tasks := w.tasks.eraseIdx k }.finish t.origin ending)

theorem Mixes.effect_step (n : NodeCrates) (j : PayloadCrates) (nodes : List MixNode) (w : Mixes)
    (label : MixLabel) : Effect n j nodes w (w.step n j nodes label) := by
  have hidle : Effect n j nodes w w := .still 0
  cases label with
  | send address packetBytes => exact .sent address packetBytes
  | receivePacket k =>
    simp only [step]
    cases hp : w.posts[k]? with
    | none => exact hidle
    | some p =>
      cases hreceive : receivePacket n nodes w.nowNs p with
      | ok task =>
        simp only [hreceive]
        exact .received k p hp task hreceive
      | error ending =>
        simp only [hreceive]
        exact .stopped k p hp ending (Or.inl hreceive)
  | lose k =>
    simp only [step]
    cases hp : w.posts[k]? with
    | none => exact hidle
    | some p => exact .stopped k p hp .lost (Or.inr rfl)
  | runTask k =>
    simp only [step]
    cases ht : w.tasks[k]? with
    | none => exact hidle
    | some t =>
      by_cases hearly : w.nowNs < t.dueNs
      · simp only [hearly, if_true]
        exact hidle
      · have hdue : t.dueNs ≤ w.nowNs := not_lt.mp hearly
        simp only [hearly, if_false]
        cases hrun : Mixnet.runTask j w.nowNs t with
        | ok p => exact .ran k t ht hdue p hrun
        | error ending => exact .finished k t ht ending (Or.inl ⟨hdue, hrun⟩)
  | stop k =>
    simp only [step]
    cases ht : w.tasks[k]? with
    | none => exact hidle
    | some t => exact .finished k t ht .lost (Or.inr rfl)
  | wait ns => exact .still ns

/-- Every packet is at exactly one place. -/
lemma Mixes.Effect.origins {w' : Mixes} (heffect : Effect n j nodes w w')
    (h : w.origins = Multiset.range w.sent.length) :
    w'.origins = Multiset.range w'.sent.length := by
  cases heffect with
  | still ns => exact h
  | sent address packetBytes =>
    unfold send
    rw [List.length_append, List.length_singleton, Multiset.range_succ, ← h]
    unfold Mixes.origins
    rw [List.map_cons, ← Multiset.cons_coe, Multiset.cons_add, Multiset.cons_add]
  | received k p hp task hreceive =>
    rw [← h]
    unfold Mixes.origins
    rw [Table.coe_map_eraseIdx hp, List.map_cons, ← Multiset.cons_coe,
      origin_receivePacket hreceive]
    simp only [Multiset.add_cons, Multiset.cons_add]
  | stopped k p hp ending _ =>
    rw [sent_finish, ← h]
    unfold Mixes.origins finish
    rw [Table.coe_map_eraseIdx hp, List.map_cons, ← Multiset.cons_coe]
    simp only [Multiset.add_cons, Multiset.cons_add]
  | ran k t ht _ p hrun =>
    rw [← h]
    unfold Mixes.origins
    rw [Table.coe_map_eraseIdx ht, List.map_cons, ← Multiset.cons_coe, origin_runTask hrun]
    simp only [Multiset.add_cons, Multiset.cons_add]
  | finished k t ht ending _ =>
    rw [sent_finish, ← h]
    unfold Mixes.origins finish
    rw [Table.coe_map_eraseIdx ht, List.map_cons, ← Multiset.cons_coe]
    simp only [Multiset.add_cons, Multiset.cons_add]

end Conservation

/-- The way of a packet: the path and the delays it was built with, its tag and payload, and
when it was handed in. -/
structure Route where
  path : List MixNodeDescriptor
  delays : List UInt64
  tag : Bytes
  payload : Bytes
  sentNs : ℕ

/-- The delays that hops wait. The one of the last hop is waited by nobody. -/
def owedNs (delays : List UInt64) : ℕ := (delays.dropLast.map UInt64.toNat).sum

/-- What the last hop unwraps. -/
def finalOutcome (tag payload : Bytes) : Except PardaError UnwrapOutcome :=
  if tag = relayDestinationTag then .ok (.deliver payload)
  else if tag = pullDestinationTag then .ok (.pullRequest payload)
  else if tag = coverDestinationTag then .ok .dropCover
  else .error (unrecognisedTag tag)

namespace Route

def earliestNs (r : Route) : ℕ := r.sentNs + owedNs r.delays

/-- What the relay is to get. -/
def expected (j : PayloadCrates) (r : Route) : Option RelayPost :=
  if r.tag = relayDestinationTag then deliver j r.payload
  else if r.tag = pullDestinationTag then stagePull j r.payload
  else none

/-- The nodes of the path are up at their addresses, with their keys. -/
def Served (n : NodeCrates) (nodes : List MixNode) (r : Route) : Prop :=
  ∀ d ∈ r.path, ∃ secretKey, secretAt nodes d.address = some secretKey ∧
    n.publicKey secretKey = d.publicKey

/-- A packet with `path` and `delays` still before it. -/
structure Ahead (n : NodeCrates) (r : Route) (path : List MixNodeDescriptor)
    (delays : List UInt64) (packetBytes : Bytes) : Prop where
  suffix : path <:+ r.path
  length : delays.length = path.length
  onion : ∃ destination nodes, taggedDestination r.tag = .ok destination ∧
    sphinxNodes path = .ok nodes ∧ Onion n destination r.payload (nodes.zip delays) packetBytes

def OnPosting (n : NodeCrates) (r : Route) (nowNs : ℕ) (p : Posting) : Prop :=
  ∃ d path delays, Ahead n r (d :: path) delays p.packetBytes ∧ p.address = d.address ∧
    r.earliestNs ≤ nowNs + owedNs delays

inductive OnTask (n : NodeCrates) (r : Route) (t : MixTask) : Prop where
  | forward (d : MixNodeDescriptor) (path : List MixNodeDescriptor) (delays : List UInt64)
      (delay : UInt64) (packetBytes : Bytes) (houtcome : t.outcome = .forward d.address delay packetBytes)
      (hahead : Ahead n r (d :: path) delays packetBytes)
      (hdue : r.earliestNs ≤ t.dueNs + owedNs delays)
  | final (d : MixNodeDescriptor) (houtcome : finalOutcome r.tag r.payload = .ok t.outcome)
      (hlast : r.path.getLast? = some d) (hnode : t.node = d.address) (hdue : r.earliestNs ≤ t.dueNs)

/-- An end that the packet may come to: the last node posts what it carries, not before all
delays have passed, or it carries nothing for the relay; or it is lost. -/
inductive Ends (j : PayloadCrates) (r : Route) : Ending → Prop where
  | lost : Ends j r .lost
  | posted (d : MixNodeDescriptor) (post : RelayPost) (atNs : ℕ) (hpost : r.expected j = some post)
      (hlast : r.path.getLast? = some d) (hat : r.earliestNs ≤ atNs) :
      Ends j r (.posted d.address post atNs)
  | discarded (hnone : r.expected j = none) : Ends j r .discarded

section Steps

variable {n : NodeCrates} {j : PayloadCrates} {nodes : List MixNode} {r : Route} {nowNs : ℕ}
  {p : Posting} {t : MixTask}

lemma owedNs_cons (delay : UInt64) {delays : List UInt64} (h : delays ≠ []) :
    owedNs (delay :: delays) = delay.toNat + owedNs delays := by
  unfold owedNs
  rw [List.dropLast_cons_of_ne_nil h, List.map_cons, List.sum_cons]

lemma processPacket_final {destination payload tag bytes : Bytes} {node : SphinxNode}
    {delay : UInt64} {secret : Bytes32} (h : Onion n destination payload [(node, delay)] bytes)
    (htag : taggedDestination tag = .ok destination) (hkey : n.publicKey secret = node.publicKey) :
    processPacket n bytes secret = finalOutcome tag payload := by
  obtain ⟨packet, hpacket, hpeel, -⟩ := h
  obtain ⟨inner, hinner, hrecover⟩ := hpeel secret hkey
  have hdecode : destinationTag destination = .ok tag :=
    decodeFixed_of_encodeFixed (by decide) (by decide) htag
  unfold processPacket recoverPayload finalOutcome
  simp only [hpacket, hinner, hdecode, hrecover, Except.map]

/-- A node of the path takes the packet in. -/
lemma OnPosting.received (h : OnPosting n r nowNs p) (hserved : r.Served n nodes)
    (htag : ∃ outcome, finalOutcome r.tag r.payload = .ok outcome) :
    ∃ task, receivePacket n nodes nowNs p = .ok task ∧ OnTask n r task := by
  obtain ⟨d, path, delays, hahead, haddress, hearly⟩ := h
  obtain ⟨destination, snodes, hdestination, hsnodes, honion⟩ := hahead.onion
  obtain ⟨secretKey, hsecret, hkey⟩ := hserved d (hahead.suffix.subset List.mem_cons_self)
  have hreceive : ∀ outcome, processPacket n p.packetBytes secretKey = .ok outcome →
      receivePacket n nodes nowNs p = .ok ⟨p.address, outcome, nowNs + outcome.delayNs, p.origin⟩ := by
    intro outcome hprocess
    unfold receivePacket
    simp only [haddress, hsecret, hprocess]
  obtain ⟨token, rest, htoken, hrest, rfl⟩ := sphinxNodes_cons hsnodes
  cases path with
  | nil =>
    cases hrest
    obtain ⟨delay, rfl⟩ := List.length_eq_one_iff.mp hahead.length
    obtain ⟨outcome, houtcome⟩ := htag
    have hprocess := processPacket_final honion hdestination hkey
    rw [houtcome] at hprocess
    refine ⟨_, hreceive outcome hprocess, .final d houtcome ?_ haddress ?_⟩
    · obtain ⟨before, hbefore⟩ := hahead.suffix
      rw [← hbefore]
      exact List.getLast?_concat
    · exact hearly.trans (Nat.add_le_add_left (Nat.zero_le _) _)
  | cons next path =>
    obtain ⟨token', rest', htoken', -, hnext⟩ := sphinxNodes_cons hrest
    obtain ⟨delay, delays, rfl⟩ := List.exists_cons_of_length_eq_add_one hahead.length
    have hlength : delays.length = (next :: path).length := Nat.succ.inj hahead.length
    obtain ⟨delay', delays', hdelays⟩ := List.exists_cons_of_length_eq_add_one hlength
    subst hnext hdelays
    obtain ⟨inner, hprocess, hinner⟩ := processPacket_forward honion htoken' hkey
    refine ⟨_, hreceive _ hprocess, .forward next path (delay' :: delays') delay inner rfl ?_ ?_⟩
    · exact ⟨(List.suffix_cons d _).trans hahead.suffix, hlength, destination, _, hdestination,
        hrest, hinner⟩
    · rw [owedNs_cons delay (List.cons_ne_nil _ _)] at hearly
      change r.earliestNs ≤ nowNs + delay.toNat + owedNs (delay' :: delays')
      omega

/-- A task that has slept posts the packet to the next node of the path, or ends as the tag
says. -/
lemma OnTask.ran (h : OnTask n r t) (hdue : t.dueNs ≤ nowNs) :
    (∀ p, runTask j nowNs t = .ok p → OnPosting n r nowNs p) ∧
      ∀ ending, runTask j nowNs t = .error ending → Ends j r ending := by
  cases h with
  | forward d path delays delay packetBytes houtcome hahead hearly =>
    have hrun : runTask j nowNs t = .ok ⟨d.address, packetBytes, t.origin⟩ := by
      rw [runTask, houtcome]
    rw [hrun]
    refine ⟨fun p hp => ?_, nofun⟩
    cases hp
    exact ⟨d, path, delays, hahead, rfl, hearly.trans (Nat.add_le_add_right hdue _)⟩
  | final d houtcome hlast hnode hearly =>
    have hends : ∀ post, r.expected j = post → Ends j r (endingOf nowNs t.node post) := by
      rintro (- | post) hpost
      · exact .discarded hpost
      · rw [endingOf, hnode]
        exact .posted d post nowNs hpost hlast (hearly.trans hdue)
    suffices hrun : ∃ ending, runTask j nowNs t = .error ending ∧ Ends j r ending by
      obtain ⟨ending, hending, hok⟩ := hrun
      rw [hending]
      exact ⟨nofun, fun ending' h' => by cases h'; exact hok⟩
    unfold finalOutcome at houtcome
    unfold runTask
    unfold expected at hends
    split_ifs at houtcome hends with hrelay hpull hcover
    all_goals
      rw [Except.ok.injEq] at houtcome
      rw [← houtcome]
      exact ⟨_, rfl, hends _ rfl⟩

end Steps

/-- Every trace of the packet numbered `origin` is on its route. -/
structure Followed (n : NodeCrates) (j : PayloadCrates) (r : Route) (origin : ℕ) (w : Mixes) :
    Prop where
  sent : origin < w.sent.length
  posts : ∀ p ∈ w.posts, p.origin = origin → OnPosting n r w.nowNs p
  tasks : ∀ t ∈ w.tasks, t.origin = origin → OnTask n r t
  ended : ∀ e ∈ w.ended, e.1 = origin → Ends j r e.2

section Runs

variable {n : NodeCrates} {j : PayloadCrates} {nodes : List MixNode} {r : Route} {origin : ℕ}
  {w w' : Mixes}

lemma OnPosting.wait {nowNs : ℕ} {p : Posting} (h : OnPosting n r nowNs p) (ns : ℕ) :
    OnPosting n r (nowNs + ns) p := by
  obtain ⟨d, path, delays, hahead, haddress, hearly⟩ := h
  exact ⟨d, path, delays, hahead, haddress, hearly.trans (by omega)⟩

lemma Followed.effect (hserved : r.Served n nodes)
    (htag : ∃ outcome, finalOutcome r.tag r.payload = .ok outcome) (h : Followed n j r origin w)
    (heffect : w.Effect n j nodes w') : Followed n j r origin w' := by
  have herased : ∀ k, ∀ p ∈ w.posts.eraseIdx k, p.origin = origin → OnPosting n r w.nowNs p :=
    fun k p hp => h.posts p (List.mem_of_mem_eraseIdx hp)
  have hstopped : ∀ k, ∀ t ∈ w.tasks.eraseIdx k, t.origin = origin → OnTask n r t :=
    fun k t ht => h.tasks t (List.mem_of_mem_eraseIdx ht)
  cases heffect with
  | still ns => exact ⟨h.sent, fun p hp horigin => (h.posts p hp horigin).wait ns, h.tasks, h.ended⟩
  | sent address packetBytes =>
    refine ⟨?_, ?_, h.tasks, h.ended⟩
    · exact h.sent.trans_le (by simp [Mixes.send])
    · refine List.forall_mem_cons.mpr ⟨fun horigin => ?_, h.posts⟩
      exact absurd horigin h.sent.ne'
  | received k p hp task hreceive =>
    refine ⟨h.sent, herased k, List.forall_mem_cons.mpr ⟨fun horigin => ?_, h.tasks⟩, h.ended⟩
    rw [origin_receivePacket hreceive] at horigin
    obtain ⟨task', htask', hon⟩ := (h.posts p (List.mem_of_getElem? hp) horigin).received hserved htag
    rw [hreceive, Except.ok.injEq] at htask'
    exact htask' ▸ hon
  | stopped k p hp ending hending =>
    refine ⟨h.sent, herased k, h.tasks, List.forall_mem_cons.mpr ⟨fun horigin => ?_, h.ended⟩⟩
    rcases hending with hreceive | hlost
    · obtain ⟨task, htask, -⟩ := (h.posts p (List.mem_of_getElem? hp) horigin).received hserved htag
      rw [htask] at hreceive
      cases hreceive
    · exact hlost ▸ .lost
  | ran k t ht hdue p hrun =>
    refine ⟨h.sent, List.forall_mem_cons.mpr ⟨fun horigin => ?_, h.posts⟩, hstopped k, h.ended⟩
    rw [origin_runTask hrun] at horigin
    exact ((h.tasks t (List.mem_of_getElem? ht) horigin).ran hdue).1 p hrun
  | finished k t ht ending hending =>
    refine ⟨h.sent, h.posts, hstopped k, List.forall_mem_cons.mpr ⟨fun horigin => ?_, h.ended⟩⟩
    rcases hending with ⟨hdue, hrun⟩ | hlost
    · exact ((h.tasks t (List.mem_of_getElem? ht) horigin).ran hdue).2 ending hrun
    · exact hlost ▸ .lost

end Runs

end Route

/-- The number of a packet is new to everything else that is on its way. -/
lemma lt_of_origins {w : Mixes} (h : w.origins = Multiset.range w.sent.length) {origin : ℕ}
    (hmem : origin ∈ w.posts.map Posting.origin ∨ origin ∈ w.tasks.map MixTask.origin ∨
      origin ∈ w.ended.map Prod.fst) : origin < w.sent.length := by
  rw [← Multiset.mem_range, ← h, Mixes.origins, Multiset.mem_add, Multiset.mem_add, or_assoc]
  exact hmem

section Sample

def threeNodes : List MixNode :=
  [⟨"10.0.0.1:9001", List.Vector.replicate 32 1⟩, ⟨"10.0.0.2:9001", List.Vector.replicate 32 2⟩,
    ⟨"10.0.0.3:9001", List.Vector.replicate 32 3⟩]

def localPayloads : PayloadCrates where
  envelopeFromJson := Mesh.localCrates.envelopeFromJson
  pullRequestFromJson _ := .error "not a pull request"

def samplePayload : Bytes := Mesh.LocalCrates.envelopeCodec.encode (Mesh.sampleEnvelope 1)

def samplePacket : Bytes :=
  ((buildPacketTo clearMixCrates sampleRng samplePayload [sampleNode 1, sampleNode 2, sampleNode 3]
    defaultAvgDelay defaultMixPayloadSize relayDestinationTag).toOption).getD []

/-- Each hop takes the packet in and sleeps the 200 ms that it was told. -/
def sampleJourney : List MixLabel :=
  [.receivePacket 1, .receivePacket 0, .runTask 0, .wait 200000000, .runTask 0, .receivePacket 0,
    .wait 200000000, .runTask 0, .receivePacket 0, .runTask 0]

end Sample

end Parda.Mixnode.Mixnet
