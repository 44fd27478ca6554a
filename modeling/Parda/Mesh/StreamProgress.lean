import Parda.Mesh.StreamSession

/-!
# When two sync sessions over byte streams return

In each of its three exchanges a session sends all of its messages before it reads. Two sessions
whose messages of one exchange both exceed what a stream holds wait for each other.
-/

namespace Parda.Mesh

open Protocol Machine

namespace StreamSync

variable (S : StreamSync)

/-- Every message fits its prefix. -/
def AllFit : Prop := ∀ x, ∀ message ∈ S.script x 0, S.Fits message

/-- The sessions stream, or one has failed on a message that does not fit its prefix. -/
def Sound (w : StreamPair) : Prop := S.Streaming w ∨ (Failed w ∧ ¬S.AllFit)

/-- A bound on the steps that both sessions still take. -/
def remaining (w : StreamPair) : ℕ := S.left .a (w .a) + S.left .b (w .b)

/-- Neither session has written all of an exchange. -/
def Behind (k : ℕ) (w : StreamPair) : Prop := ∀ x, S.rest x (k + 1) < (S.toWrite x (w x)).length

section Runs

variable {S} {w w' : StreamPair} {x : Side}

lemma streaming_start : S.Streaming S.start := by
  intro x
  refine ⟨S.script x.other 0, ?_⟩
  constructor
  · rfl
  · exact List.suffix_refl _
  · exact Or.inl rfl
  · exact ⟨[], rfl, by simp⟩
  · rfl
  · exact Frames.partial_nil (by omega)
  · exact fun _ => rfl
  · intro hdrop
    cases hdrop

lemma remaining_eq (w : StreamPair) (x : Side) :
    S.remaining w = S.left x (w x) + S.left x.other (w x.other) := by
  cases x with
  | a => rfl
  | b => exact Nat.add_comm _ _

lemma Streaming.drop (h : S.Streaming w) (hfin : (w x).pc.isFinished = true) :
    S.Streaming (Function.update w x { w x with dropped := true }) := by
  obtain ⟨unread, hx⟩ := h x
  obtain ⟨unread', hother⟩ := h x.other
  have hdropped : S.Streams x { w x with dropped := true } (S.toWrite x.other (w x.other)) unread :=
    { hx with dropped := fun _ => hfin }
  have hsame : S.toWrite x { w x with dropped := true } = S.toWrite x (w x) := rfl
  rw [Side.other_other, ← hsame] at hother
  refine (Side.forall_iff x).mpr ⟨⟨unread, ?_⟩, ⟨unread', ?_⟩⟩
  · simpa using hdropped
  · simpa using hother

lemma Streaming.advanced (h : S.Streaming w) (hadv : S.Advanced w x w') : S.Sound w' := by
  obtain ⟨unread', hother⟩ := h x.other
  rw [Side.other_other] at hother
  cases hadv with
  | idle _ => exact Or.inl h
  | wrote b more hout hroom =>
    obtain ⟨unread, hx⟩ := h x
    have hcoming : S.toWrite x (w x) = b :: (more ++ S.framed (S.ahead x (w x).pc)) := by
      rw [toWrite, hout, List.cons_append]
    refine Or.inl ((Side.forall_iff x).mpr ⟨⟨unread, ?_⟩, ⟨unread', ?_⟩⟩)
    · simpa [toWrite] using hx.wrote hout
    · simpa [toWrite] using hother.arrived hcoming
  | moved e unread hx hwrite _ =>
    rw [← hwrite] at hother
    refine Or.inl ((Side.forall_iff x).mpr ⟨⟨unread, ?_⟩, ⟨unread', ?_⟩⟩)
    · simpa using hx
    · simpa using hother
  | failed e error hpc message hmem hfits =>
    refine Or.inr ⟨⟨x, error, ?_⟩, fun hall => hfits (hall _ message hmem)⟩
    rw [Function.update_self]
    exact hpc

/-- A receive changes one end only. -/
lemma read_eq_update (w : StreamPair) (x : Side) (nowMs : UInt64) :
    ∃ e, S.read w x nowMs = Function.update w x e := by
  unfold read
  cases (w x).inbox with
  | nil =>
    cases (w x.other).dropped with
    | true => exact ⟨_, rfl⟩
    | false => exact ⟨w x, (Function.update_eq_self x w).symm⟩
  | cons b more =>
    simp only
    cases Frames.body? 4 ((w x).received ++ [b]) with
    | none => exact ⟨_, rfl⟩
    | some body => exact ⟨_, rfl⟩

/-- So does a local section. -/
lemma work_eq_update (w : StreamPair) (x : Side) : ∃ e, S.work w x = Function.update w x e := by
  simp only [work]
  cases (S.event w x (.advance (S.party x).sweepMs (S.party x).order)).2.2 with
  | none => exact ⟨_, rfl⟩
  | some message =>
    simp only
    cases S.json.toVec message with
    | error e => exact ⟨_, rfl⟩
    | ok bytes => exact ⟨_, rfl⟩

/-- A step of one session leaves the other where it is. -/
lemma pc_advance_other (w : StreamPair) (x : Side) (nowMs : UInt64) :
    (S.advance w x nowMs x.other).pc = (w x.other).pc := by
  unfold advance
  cases (w x).outgoing with
  | cons b more =>
    simp only [write]
    split_ifs
    · simp
    · simp
    · rfl
  | nil =>
    cases (w x).pc.waiting with
    | true =>
      obtain ⟨e, he⟩ := S.read_eq_update w x nowMs
      simp [he]
    | false =>
      obtain ⟨e, he⟩ := S.work_eq_update w x
      simp [he]

/-- A session that has returned stays as it returned. -/
lemma pc_advance_self {result : Except MeshError ℕ} (hpc : (w x).pc = .finished result)
    (nowMs : UInt64) : (S.advance w x nowMs x).pc = .finished result := by
  unfold advance
  cases (w x).outgoing with
  | cons b more =>
    simp only [write]
    split_ifs
    · simp [event, hpc, syncStep, StreamEnd.after]
    · simp [hpc]
    · exact hpc
  | nil => simp [work, event, hpc, syncStep, SyncPc.waiting, StreamEnd.after]

lemma Failed.step (h : Failed w) (label : StreamLabel) : Failed (S.step w label) := by
  obtain ⟨x, error, hpc⟩ := h
  refine ⟨x, error, ?_⟩
  cases label with
  | advance y nowMs =>
    rcases Side.eq_or_eq_other x y with rfl | rfl
    · exact pc_advance_self hpc nowMs
    · have hother := pc_advance_other (S := S) w x.other nowMs
      rw [Side.other_other] at hother
      exact hother.trans hpc
  | drop y =>
    simp only [StreamSync.step]
    split_ifs
    · rcases Side.eq_or_eq_other x y with rfl | rfl
      · simpa using hpc
      · simpa using hpc
    · exact hpc

lemma Sound.step (hjson : S.json.RoundTrip) (hwhole : S.json.Whole) (h : S.Sound w)
    (label : StreamLabel) : S.Sound (S.step w label) := by
  rcases h with h | ⟨hfailed, hall⟩
  · cases label with
    | advance x nowMs => exact h.advanced (h.advance hjson hwhole x nowMs)
    | drop x =>
      simp only [StreamSync.step]
      split_ifs with hfin
      · exact Or.inl (h.drop hfin)
      · exact Or.inl h
  · exact Or.inr ⟨hfailed.step label, hall⟩

lemma Sound.streaming (h : S.Sound w) (hall : S.AllFit) : S.Streaming w :=
  h.resolve_right fun hfailed => hfailed.2 hall

/-- A step that a session has to take brings the end nearer. -/
lemma Advanced.remaining_lt (hall : S.AllFit) (hadv : S.Advanced w x w') (nowMs : UInt64) :
    S.effective w (.advance x nowMs) + S.remaining w' ≤ S.remaining w := by
  have hone : S.effective w (.advance x nowMs) ≤ 1 := by
    simp only [effective]
    split
    · exact le_rfl
    · exact Nat.zero_le _
  rw [remaining_eq w x, remaining_eq w' x]
  cases hadv with
  | idle hno => simp [effective, hno]
  | wrote b more hout hroom =>
    simp only [left, toWrite, hout, Function.update_self,
      Function.update_of_ne (Side.ne_other x), List.length_append, List.length_cons,
      List.length_nil]
    omega
  | moved e unread _ _ hleft =>
    simp only [Function.update_self, Function.update_of_ne (Side.other_ne x)]
    omega
  | failed e error _ message hmem hfits => exact absurd (hall _ message hmem) hfits

lemma effective_add_remaining (hjson : S.json.RoundTrip) (hwhole : S.json.Whole) (hall : S.AllFit)
    (h : S.Sound w) (label : StreamLabel) :
    S.effective w label + S.remaining (S.step w label) ≤ S.remaining w := by
  cases label with
  | advance x nowMs =>
    exact ((h.streaming hall).advance hjson hwhole x nowMs).remaining_lt hall nowMs
  | drop x =>
    simp only [StreamSync.step, effective, Nat.zero_add]
    split_ifs
    · rw [remaining_eq w x, remaining_eq _ x]
      simp [left, toWrite]
    · exact le_rfl

lemma rest_sub (x : Side) (k : ℕ) :
    S.rest x k - S.rest x (k + 1) = (S.framed (S.exchange x k)).length := by
  rw [rest_eq k, Nat.add_sub_cancel]

lemma Streaming.running (h : S.Streaming w) (hwrite : S.toWrite x (w x) ≠ []) :
    (w x).pc.isFinished = false := by
  obtain ⟨unread, hx⟩ := h x
  by_contra hfin
  exact hwrite (hx.of_finished (by simpa using hfin)).1

/-- Two sessions that wait in a `send` both are in an exchange in which both have more to write
than a stream holds. -/
lemma Streaming.congested (h : S.Streaming w) (hblocked : ∀ x, S.Blocked w x) :
    ∃ k, ∀ x, S.capacity < (S.framed (S.exchange x k)).length := by
  have hrunning : ∀ x, (w x).pc.isFinished = false := by
    intro x
    apply h.running
    exact fun hnil => (hblocked x).1 (List.append_eq_nil_iff.mp hnil).1
  obtain ⟨unreadA, ha⟩ := h .a
  obtain ⟨unreadB, hb⟩ := h .b
  have hwritingA := ha.writing (hrunning .a) (Or.inl (hblocked .a).1)
  have hwritingB := hb.writing (hrunning .b) (Or.inl (hblocked .b).1)
  obtain ⟨hround, hlargeA, hlargeB⟩ :=
    hwritingA.congested rest_antitone rest_antitone hwritingB rfl rfl
  refine ⟨(w .a).pc.round, ?_⟩
  intro x
  rw [← rest_sub]
  cases x with
  | a => exact (hblocked .a).2.2.trans_lt hlargeA
  | b => exact (hblocked .b).2.2.trans_lt hlargeB

/-- A session that has no step to take has returned, waits in a `send` or waits for a byte. -/
lemma stuck_cases (hstuck : ¬S.CanStep w x) :
    (w x).pc.isFinished = true ∨ S.Blocked w x ∨
      ((w x).outgoing = [] ∧ (w x).pc.waiting = true ∧ (w x).inbox = []) := by
  by_cases hout : (w x).outgoing = []
  · rw [CanStep, if_pos hout] at hstuck
    cases hfin : (w x).pc.isFinished with
    | true => exact Or.inl rfl
    | false =>
      have hstarved : (w x).pc.waiting = true ∧ (w x).inbox = [] ∧ (w x.other).dropped = false := by
        simpa [hfin, not_or] using hstuck
      exact Or.inr (Or.inr ⟨hout, hstarved.1, hstarved.2.1⟩)
  · rw [CanStep, if_neg hout, not_or, not_lt, Bool.not_eq_true] at hstuck
    exact Or.inr (Or.inl ⟨hout, hstuck⟩)

/-- A session that waits for a byte has a peer that is to write it. -/
lemma Streaming.starved (h : S.Streaming w) (hout : (w x).outgoing = [])
    (hwait : (w x).pc.waiting = true) (hinbox : (w x).inbox = []) :
    (w x.other).pc.isFinished = false := by
  apply h.running
  intro hnil
  obtain ⟨unread, hx⟩ := h x
  have hleft := (hx.reading hout hwait).left
  rw [hinbox, hnil] at hleft
  exact Nat.not_lt_zero _ hleft

/-- A session that waits in a `send` has a peer with bytes to read. -/
lemma Blocked.inbox_ne_nil (h : S.Blocked w x) : (w x.other).inbox ≠ [] := by
  rw [← List.length_pos_iff]
  exact S.capacity_pos.trans_le h.2.2

/-- Two sessions without a step to take have returned, or both wait in a `send`. -/
lemma Streaming.returned_or_blocked (h : S.Streaming w) (hstuck : ∀ x, ¬S.CanStep w x) :
    Returned w ∨ ∀ x, S.Blocked w x := by
  by_cases hblocked : ∀ x, S.Blocked w x
  · exact Or.inr hblocked
  have hfinished : ∀ x, (w x).pc.isFinished = true := by
    intro x
    by_contra hrunning
    obtain ⟨unread, hx⟩ := h x
    obtain ⟨unread', hother⟩ := h x.other
    rcases (stuck_cases (hstuck x)).resolve_left hrunning with hfull | ⟨hout, hwait, hinbox⟩
    · rcases stuck_cases (hstuck x.other) with hfin | hfull' | ⟨-, -, hinbox⟩
      · exact hfull.inbox_ne_nil (hother.of_finished hfin).2.2.1
      · exact hblocked ((Side.forall_iff x).mpr ⟨hfull, hfull'⟩)
      · exact hfull.inbox_ne_nil hinbox
    · have hpeer := h.starved hout hwait hinbox
      rcases stuck_cases (hstuck x.other) with hfin | hfull | ⟨hout', hwait', hinbox'⟩
      · rw [hfin] at hpeer
        cases hpeer
      · have hne := hfull.inbox_ne_nil
        rw [Side.other_other] at hne
        exact hne hinbox
      · have hreading := hx.reading hout hwait
        have hreading' := hother.reading hout' hwait'
        rw [Side.other_other] at hreading'
        exact hreading.not_both_starved rest_antitone rest_antitone hreading'
          (by rw [hinbox, List.length_nil, Nat.zero_add])
          (by rw [hinbox', List.length_nil, Nat.zero_add])
  left
  intro x
  obtain ⟨unread, hx⟩ := h x
  have hexp := hx.expected
  obtain ⟨result, hpc⟩ := SyncPc.exists_result (hfinished x)
  rw [hpc] at hexp
  obtain ⟨admitted, rfl⟩ := hexp
  exact ⟨admitted, hpc⟩

/-- Sessions that have returned have read every message, and none was too long. -/
lemma Sound.allFit_of_returned (h : S.Sound w) (hreturned : Returned w) :
    S.AllFit := by
  rcases h with h | ⟨⟨x, error, hpc⟩, -⟩
  · intro x message hmem
    obtain ⟨unread, hother⟩ := h x.other
    obtain ⟨admitted, hpc⟩ := hreturned x.other
    have hfin : (w x.other).pc.isFinished = true := by rw [hpc]; rfl
    obtain ⟨before, heq, hfits⟩ := hother.taken
    rw [(hother.of_finished hfin).2.1, List.append_nil, Side.other_other] at heq
    exact hfits message (heq ▸ hmem)
  · obtain ⟨admitted, hok⟩ := hreturned x
    rw [hpc] at hok
    cases hok

/-- In an exchange in which both have more to write than a stream holds, neither session comes to
its end. -/
lemma Behind.advanced {k : ℕ} (hlarge : ∀ x, S.capacity < (S.framed (S.exchange x k)).length)
    (hall : S.AllFit) (h : S.Streaming w) (hbehind : S.Behind k w) (hadv : S.Advanced w x w') :
    S.Behind k w' := by
  cases hadv with
  | idle _ => exact hbehind
  | wrote b more hout hroom =>
    obtain ⟨unread', hother⟩ := h x.other
    rw [Side.other_other] at hother
    have hrunning : (w x.other).pc.isFinished = false := by
      apply h.running
      rw [← List.length_pos_iff]
      exact (Nat.zero_le _).trans_lt (hbehind x.other)
    have hplace := hother.place hrunning
    rw [Side.other_other] at hplace
    have hx : S.rest x (k + 1) < (S.toWrite x (w x)).length - 1 := by
      refine Rounds.behind rest_antitone rest_antitone ?_ hplace rfl hroom (hbehind x.other)
      rw [rest_sub]
      exact hlarge x
    refine (Side.forall_iff x).mpr ⟨?_, ?_⟩
    · simpa [toWrite, hout] using hx
    · simpa [toWrite] using hbehind x.other
  | moved e unread _ hwrite _ =>
    refine (Side.forall_iff x).mpr ⟨?_, ?_⟩
    · rw [Function.update_self, hwrite]
      exact hbehind x
    · simpa using hbehind x.other
  | failed e error _ message hmem hfits => exact absurd (hall _ message hmem) hfits

lemma Behind.step {k : ℕ} (hjson : S.json.RoundTrip) (hwhole : S.json.Whole)
    (hlarge : ∀ x, S.capacity < (S.framed (S.exchange x k)).length) (hall : S.AllFit)
    (h : S.Streaming w) (hbehind : S.Behind k w) (label : StreamLabel) :
    S.Behind k (S.step w label) := by
  cases label with
  | advance x nowMs =>
    exact Behind.advanced hlarge hall h hbehind (h.advance hjson hwhole x nowMs)
  | drop x =>
    simp only [StreamSync.step]
    split_ifs
    · refine (Side.forall_iff x).mpr ⟨?_, ?_⟩
      · simpa [toWrite] using hbehind x
      · simpa using hbehind x.other
    · exact hbehind

lemma allFit_iff : S.AllFit ↔ ∀ x k, ∀ message ∈ S.exchange x k, S.Fits message := by
  constructor
  · intro h x k message hmem
    apply h x message
    apply (script_suffix_zero k).subset
    rw [script_eq k]
    exact List.mem_append_left _ hmem
  · intro h x message hmem
    have hscript : S.script x 0 = S.exchange x 0 ++ (S.exchange x 1 ++ S.exchange x 2) := rfl
    rw [hscript, List.mem_append, List.mem_append] at hmem
    rcases hmem with hmem | hmem | hmem
    · exact h x 0 message hmem
    · exact h x 1 message hmem
    · exact h x 2 message hmem

/-- The two sessions take turns. -/
def turns (n : ℕ) : StreamLabel := .advance (if n % 2 = 0 then .a else .b) 0

lemma exists_turn (x : Side) (n : ℕ) :
    turns n = .advance x 0 ∨ (turns n = .advance x.other 0 ∧ turns (n + 1) = .advance x 0) := by
  rcases Nat.mod_two_eq_zero_or_one n with heven | hodd
  · have hnext : (n + 1) % 2 = 1 := by omega
    cases x with
    | a => simp [turns, heven]
    | b => simp [turns, heven, hnext, Side.other]
  · have hnext : (n + 1) % 2 = 0 := by omega
    cases x with
    | a => simp [turns, hodd, hnext, Side.other]
    | b => simp [turns, hodd]

lemma maximal_turns : S.Maximal turns := by
  rintro n ⟨x, hcan⟩
  rcases exists_turn x n with hturn | ⟨hturn, hnext⟩
  · refine ⟨n, le_rfl, ?_⟩
    rw [hturn, effective, if_pos hcan]
    exact one_ne_zero
  · by_cases hother : S.CanStep (trace S.step S.start turns n) x.other
    · refine ⟨n, le_rfl, ?_⟩
      rw [hturn, effective, if_pos hother]
      exact one_ne_zero
    · have hstay : trace S.step S.start turns (n + 1) = trace S.step S.start turns n := by
        rw [trace, hturn]
        exact advance_of_not_canStep 0 hother
      refine ⟨n + 1, Nat.le_succ n, ?_⟩
      rw [hnext, hstay, effective, if_pos hcan]
      exact one_ne_zero

/-- A maximal schedule comes to a state without a step to take. -/
lemma exists_stuck (hjson : S.json.RoundTrip) (hwhole : S.json.Whole) (hall : S.AllFit)
    {schedule : ℕ → StreamLabel} (hmax : S.Maximal schedule) :
    ∃ n, S.Streaming (trace S.step S.start schedule n) ∧
      ∀ x, ¬S.CanStep (trace S.step S.start schedule n) x := by
  have hstart : S.Sound S.start := Or.inl streaming_start
  have hstep : ∀ w label, S.Sound w → S.Sound (S.step w label) :=
    fun w label hw => hw.step hjson hwhole label
  have hcost : ∀ w label, S.Sound w →
      S.effective w label + S.remaining (S.step w label) ≤ S.remaining w :=
    fun w label hw => effective_add_remaining hjson hwhole hall hw label
  obtain ⟨n, hn⟩ := exists_forall_cost_eq_zero S.remaining hstep hcost hstart schedule
  refine ⟨n, (trace_invariant hstep hstart schedule n).streaming hall, ?_⟩
  intro x hcan
  obtain ⟨m, hm, hne⟩ := hmax n ⟨x, hcan⟩
  exact hne (hn m hm)

lemma behind_start {k : ℕ} (hlarge : ∀ x, S.capacity < (S.framed (S.exchange x k)).length) :
    S.Behind k S.start := by
  intro x
  have hanti : S.rest x k ≤ S.rest x 0 := rest_antitone (Nat.zero_le k)
  have hrest := S.rest_eq (x := x) k
  have hlt := hlarge x
  change S.rest x (k + 1) < S.rest x 0
  omega

/-- An exchange in which both have more to write than a stream holds ends with both waiting in a
`send`. -/
lemma exists_blocked {k : ℕ} (hjson : S.json.RoundTrip) (hwhole : S.json.Whole) (hall : S.AllFit)
    (hlarge : ∀ x, S.capacity < (S.framed (S.exchange x k)).length) :
    ∃ labels, ∀ x, S.Blocked (run S.step S.start labels) x := by
  obtain ⟨n, hstreaming, hstuck⟩ := exists_stuck hjson hwhole hall maximal_turns
  rcases hstreaming.returned_or_blocked hstuck with hreturned | hblocked
  · have hstep : ∀ w label, S.Streaming w ∧ S.Behind k w →
        S.Streaming (S.step w label) ∧ S.Behind k (S.step w label) := by
      intro w label ⟨hw, hbehind⟩
      have hsound : S.Sound w := Or.inl hw
      exact ⟨(hsound.step hjson hwhole label).streaming hall,
        Behind.step hjson hwhole hlarge hall hw hbehind label⟩
    have hbehind := (trace_invariant hstep ⟨streaming_start, behind_start hlarge⟩ turns n).2 .a
    obtain ⟨unread, ha⟩ := hstreaming .a
    obtain ⟨admitted, hpc⟩ := hreturned .a
    have hfin : (trace S.step S.start turns n .a).pc.isFinished = true := by
      rw [hpc]
      rfl
    rw [(ha.of_finished hfin).1] at hbehind
    exact absurd hbehind (Nat.not_lt_zero _)
  · rw [trace_eq_run] at hblocked
    exact ⟨_, hblocked⟩

lemma deadlockFree_of_passes (hjson : S.json.RoundTrip) (hwhole : S.json.Whole) (h : S.Passes) :
    S.DeadlockFree := by
  have hall : S.AllFit := allFit_iff.mpr h.fits
  have hfree : ∀ w, S.Streaming w → ¬∀ x, S.Blocked w x := by
    intro w hw hblocked
    obtain ⟨k, hk⟩ := hw.congested hblocked
    obtain ⟨x, hx⟩ := h.flows k
    exact absurd (hk x) (not_lt.mpr hx)
  constructor
  · intro labels
    have hstart : S.Sound S.start := Or.inl streaming_start
    have hsound := run_invariant (fun w label hw => hw.step hjson hwhole label) hstart labels
    exact hfree _ (hsound.streaming hall)
  · intro schedule hmax
    obtain ⟨n, hstreaming, hstuck⟩ := exists_stuck hjson hwhole hall hmax
    exact ⟨n, (hstreaming.returned_or_blocked hstuck).resolve_right (hfree _ hstreaming)⟩

lemma passes_of_deadlockFree (hjson : S.json.RoundTrip) (hwhole : S.json.Whole)
    (h : S.DeadlockFree) : S.Passes := by
  obtain ⟨n, hreturned⟩ := h.returns turns maximal_turns
  have hstart : S.Sound S.start := Or.inl streaming_start
  have hsound := trace_invariant (fun w label hw => hw.step hjson hwhole label) hstart turns n
  have hall : S.AllFit := hsound.allFit_of_returned hreturned
  constructor
  · exact allFit_iff.mp hall
  · intro k
    by_contra hlarge
    rw [not_exists] at hlarge
    obtain ⟨labels, hblocked⟩ :=
      exists_blocked hjson hwhole hall fun x => not_le.mp (hlarge x)
    exact h.sends labels hblocked

/-- Two sessions over bounded byte streams return whatever the interleaving, and never wait in a
`send` both, exactly when every message fits its length prefix and in each exchange one side sends
no more than a stream holds. -/
theorem deadlockFree_iff (S : StreamSync) (hjson : S.json.RoundTrip) (hwhole : S.json.Whole) :
    S.DeadlockFree ↔ S.Passes :=
  ⟨passes_of_deadlockFree hjson hwhole, deadlockFree_of_passes hjson hwhole⟩

end Runs

/-- The stand-in codec, with a decoder that takes nothing but encodings. -/
def strictSyncJson : SyncJson where
  toVec := localSyncJson.toVec
  fromSlice bytes :=
    match localSyncJson.fromSlice bytes with
    | .ok message =>
      if syncMessageCodec.encode message = bytes then .ok message else .error "malformed input"
    | .error e => .error e

lemma strictSyncJson_roundTrip : strictSyncJson.RoundTrip := by
  intro message
  refine ⟨syncMessageCodec.encode message, rfl, ?_⟩
  have hslice : localSyncJson.fromSlice (syncMessageCodec.encode message) = .ok message :=
    LocalCrates.decodeWhole_encode syncMessageCodec message
  simp [strictSyncJson, hslice]

lemma strictSyncJson_whole : strictSyncJson.Whole := by
  intro message bytes hvec n hn
  cases hvec
  cases hslice : strictSyncJson.fromSlice ((syncMessageCodec.encode message).take n) with
  | error e => exact ⟨e, rfl⟩
  | ok message' =>
    have hencode : syncMessageCodec.encode message' = (syncMessageCodec.encode message).take n := by
      simp only [strictSyncJson] at hslice
      split at hslice
      · split_ifs at hslice with heq
        cases hslice
        exact heq
      · cases hslice
    have hrest := syncMessageCodec.eq_nil_of_encode_append
      (show syncMessageCodec.encode message' ++ (syncMessageCodec.encode message).drop n =
        syncMessageCodec.encode message by rw [hencode, List.take_append_drop])
    have hlen := congrArg List.length hrest
    rw [List.length_drop, List.length_nil] at hlen
    omega

/-- Two agents that have admitted two bundles each, and streams of 64 bytes. -/
def twoEach : StreamSync where
  crates := localCrates
  json := strictSyncJson
  party x :=
    { cfg := {}
      store := match x with
        | .a => carrying [carriedBundle 0, carriedBundle 1]
        | .b => carrying [carriedBundle 2, carriedBundle 3]
      sweepMs := 2000
      order := .insertion }
  capacity := 64
  capacity_pos := by decide

theorem deadlockFree_iff_twoEach : twoEach.DeadlockFree ↔ twoEach.Passes :=
  deadlockFree_iff twoEach strictSyncJson_roundTrip strictSyncJson_whole

/-- Both come to write 64 bytes of the hashes that they hold, and wait for the other to read. -/
theorem not_deadlockFree_twoEach :
    (∃ labels, ∀ x, twoEach.Blocked (run twoEach.step twoEach.start labels) x) ∧
    ¬twoEach.DeadlockFree := by
  have hall : twoEach.AllFit := by
    intro x
    unfold Fits
    cases x with
    | a => decide +kernel
    | b => decide +kernel
  have hlarge : ∀ x, 64 < (twoEach.framed (twoEach.exchange x 0)).length := by
    intro x
    cases x with
    | a => decide +kernel
    | b => decide +kernel
  obtain ⟨labels, hblocked⟩ :=
    exists_blocked strictSyncJson_roundTrip strictSyncJson_whole hall hlarge
  exact ⟨⟨labels, hblocked⟩, fun h => h.sends labels hblocked⟩

end StreamSync

end Parda.Mesh
