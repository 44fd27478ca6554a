import Parda.Lib.Rounds
import Parda.Mesh.StreamLink

/-!
# One end of a sync session over byte streams

What a session has read and written when it has not failed, and what one of its steps can do.
-/

namespace Parda.Mesh

open Protocol Machine

namespace SyncPc

/-- The exchange that a session is in. -/
def round : SyncPc → ℕ
  | .sweep | .snapshot | .sendHave _ | .recvHave _ => 0
  | .sendWant _ | .recvWant => 1
  | .collect _ | .sendBundles _ | .admitting _ _ => 2
  | .finished _ => 3

/-- The local sections that a session has still to run. -/
def sections : SyncPc → ℕ
  | .sweep => 3
  | .snapshot => 2
  | .sendHave _ | .recvHave _ | .sendWant _ | .recvWant | .collect _ => 1
  | .sendBundles _ | .admitting _ _ | .finished _ => 0

end SyncPc

namespace StreamSync

variable (S : StreamSync)

section Script

variable (x : Side)

/-- The messages from an exchange on. -/
def script : ℕ → List SyncMessage
  | 0 => .haveHashes (S.myHashes x) :: .want (S.want x) :: S.exchange x 2
  | 1 => .want (S.want x) :: S.exchange x 2
  | 2 => S.exchange x 2
  | _ => []

/-- The bytes of an end from an exchange on. -/
def rest (k : ℕ) : ℕ := (S.framed (S.script x k)).length

/-- The messages that a session has still to send. -/
def ahead : SyncPc → List SyncMessage
  | .sweep | .snapshot | .sendHave _ => S.script x 0
  | .recvHave _ | .sendWant _ => S.script x 1
  | .recvWant | .collect _ => S.script x 2
  | .sendBundles toSend => toSend.map .bundle ++ [.done]
  | .admitting _ _ | .finished _ => []

/-- What a session has at hand is what the two stores make of it. -/
def Expected (store : RelayStore) : SyncPc → Prop
  | .sweep => store = (S.party x).store
  | .snapshot => store = S.swept x
  | .sendHave mine | .recvHave mine => store = S.swept x ∧ mine = S.myHashes x
  | .sendWant want => store = S.swept x ∧ want = S.want x
  | .recvWant => store = S.swept x
  | .collect theirs => store = S.swept x ∧ theirs = S.want x.other
  | .sendBundles _ | .admitting _ _ => True
  | .finished result => ∃ admitted, result = .ok admitted

/-- The bytes that an end has still to write. -/
def toWrite (e : StreamEnd) : Bytes := e.outgoing ++ S.framed (S.ahead x e.pc)

variable {S x}

lemma framed_cons (message : SyncMessage) (messages : List SyncMessage) :
    S.framed (message :: messages) =
      Frames.frame 4 (S.encoded message) ++ S.framed messages := rfl

lemma framed_append (messages messages' : List SyncMessage) :
    S.framed (messages ++ messages') = S.framed messages ++ S.framed messages' := by
  simp only [framed, List.map_append, Frames.frames_append]

lemma framed_pos {message : SyncMessage} (messages : List SyncMessage) :
    0 < (S.framed (message :: messages)).length := by
  rw [framed_cons, List.length_append, Frames.length_frame]
  omega

lemma framed_suffix {messages messages' : List SyncMessage} (h : messages <:+ messages') :
    S.framed messages <:+ S.framed messages' := by
  obtain ⟨before, rfl⟩ := h
  exact ⟨S.framed before, (framed_append before messages).symm⟩

lemma script_eq (k : ℕ) : S.script x k = S.exchange x k ++ S.script x (k + 1) := by
  match k with
  | 0 => rfl
  | 1 => rfl
  | 2 => exact (List.append_nil _).symm
  | _ + 3 => rfl

lemma script_suffix (k : ℕ) : S.script x (k + 1) <:+ S.script x k := by
  rw [script_eq k]
  exact List.suffix_append _ _

lemma script_suffix_zero (k : ℕ) : S.script x k <:+ S.script x 0 := by
  induction k with
  | zero => exact List.suffix_refl _
  | succ k ih => exact (script_suffix k).trans ih

lemma rest_eq (k : ℕ) : S.rest x k = (S.framed (S.exchange x k)).length + S.rest x (k + 1) := by
  rw [rest, script_eq k, framed_append, List.length_append, rest]

lemma rest_antitone : Antitone (S.rest x) := by
  apply antitone_nat_of_succ_le
  intro k
  rw [rest_eq k]
  exact Nat.le_add_left _ _

/-- The messages of an exchange end, after its bundles, with the one `Done`. -/
lemma suffix_exchange {message : SyncMessage} {messages : List SyncMessage}
    (h : message :: messages <:+ S.exchange x 2) :
    (∃ bytes, message = .bundle bytes ∧ messages ≠ []) ∨ (message = .done ∧ messages = []) := by
  have hlist : ∀ pushed : List Bytes, message :: messages <:+ pushed.map .bundle ++ [.done] →
      (∃ bytes, message = .bundle bytes ∧ messages ≠ []) ∨
        (message = .done ∧ messages = []) := by
    intro pushed
    induction pushed with
    | nil =>
      intro h
      rcases List.suffix_cons_iff.mp h with heq | hnil
      · cases heq
        exact Or.inr ⟨rfl, rfl⟩
      · cases List.suffix_nil.mp hnil
    | cons bytes pushed ih =>
      intro h
      rcases List.suffix_cons_iff.mp h with heq | htail
      · cases heq
        exact Or.inl ⟨bytes, rfl, by simp⟩
      · exact ih htail
  exact hlist _ h

end Script

/-! ### What a session has read and written -/

/-- Every length fits its prefix. -/
def Fits (message : SyncMessage) : Prop := (S.encoded message).length < 2 ^ 32

/-- An end whose session has not failed. The messages `unread` are those that it has not read to
the end, and `coming` are the bytes that its peer has still to write. -/
structure Streams (x : Side) (e : StreamEnd) (coming : Bytes) (unread : List SyncMessage) :
    Prop where
  expected : S.Expected x e.store e.pc
  sending : S.toWrite x e <:+ S.framed (S.script x e.pc.round)
  pending : unread = S.script x.other e.pc.round ∨
    (e.outgoing = [] ∧ (∃ admitted budget, e.pc = .admitting admitted budget) ∧
      unread ≠ [] ∧ unread <:+ S.script x.other e.pc.round)
  taken : ∃ before, S.script x.other 0 = before ++ unread ∧ ∀ message ∈ before, S.Fits message
  stream : e.received ++ e.inbox ++ coming = S.framed unread
  received : Frames.Partial 4 e.received
  received_nil : e.outgoing ≠ [] ∨ e.pc.waiting = false → e.received = []
  dropped : e.dropped = true → e.pc.isFinished = true

/-- Both ends stream. -/
def Streaming (w : StreamPair) : Prop :=
  ∀ x, ∃ unread, S.Streams x (w x) (S.toWrite x.other (w x.other)) unread

section Events

variable {S} {w : StreamPair} {x : Side} {e : StreamEnd} {coming : Bytes} {unread : List SyncMessage}
  {store : RelayStore} {pc : SyncPc}

/-- A local section sends nothing, or the next message. -/
lemma syncStep_work (hexp : S.Expected x store pc) (hwait : pc.waiting = false)
    (hfin : pc.isFinished = false) :
    let next := syncStep S.crates (S.party x).cfg store pc
      (.advance (S.party x).sweepMs (S.party x).order)
    S.Expected x next.2.1 next.1 ∧ next.1.round = pc.round ∧
      ((next.2.2 = none ∧ S.ahead x next.1 = S.ahead x pc ∧
          next.1.sections + 1 = pc.sections) ∨
        ∃ message, next.2.2 = some message ∧ S.ahead x pc = message :: S.ahead x next.1 ∧
          next.1.sections = pc.sections) := by
  cases pc with
  | sweep =>
    cases hexp
    exact ⟨rfl, rfl, Or.inl ⟨rfl, rfl, rfl⟩⟩
  | snapshot =>
    cases hexp
    exact ⟨⟨rfl, rfl⟩, rfl, Or.inl ⟨rfl, rfl, rfl⟩⟩
  | sendHave mine =>
    obtain ⟨rfl, rfl⟩ := hexp
    exact ⟨⟨rfl, rfl⟩, rfl, Or.inr ⟨_, rfl, rfl, rfl⟩⟩
  | sendWant want =>
    obtain ⟨rfl, rfl⟩ := hexp
    exact ⟨rfl, rfl, Or.inr ⟨_, rfl, rfl, rfl⟩⟩
  | collect theirs =>
    obtain ⟨rfl, rfl⟩ := hexp
    exact ⟨trivial, rfl, Or.inl ⟨rfl, rfl, rfl⟩⟩
  | sendBundles toSend =>
    cases toSend with
    | nil => exact ⟨trivial, rfl, Or.inr ⟨.done, rfl, rfl, rfl⟩⟩
    | cons bytes rest => exact ⟨trivial, rfl, Or.inr ⟨.bundle bytes, rfl, rfl, rfl⟩⟩
  | recvHave mine => cases hwait
  | recvWant => cases hwait
  | admitting admitted budget => cases hwait
  | finished result => cases hfin

/-- What a waiting session does with the next message of its peer. -/
lemma syncStep_next {message : SyncMessage} (nowMs : UInt64) (hexp : S.Expected x store pc)
    (hwait : pc.waiting = true)
    (hpending : message :: unread = S.script x.other pc.round ∨
      ((∃ admitted budget, pc = .admitting admitted budget) ∧
        message :: unread <:+ S.script x.other pc.round)) :
    let next := syncStep S.crates (S.party x).cfg store pc (.receive nowMs (.ok message))
    S.Expected x next.2.1 next.1 ∧ S.ahead x next.1 = S.ahead x pc ∧
      next.1.sections = pc.sections ∧ S.ahead x pc <:+ S.script x next.1.round ∧
      (unread = S.script x.other next.1.round ∨
        ((∃ admitted budget, next.1 = .admitting admitted budget) ∧ unread ≠ [] ∧
          unread <:+ S.script x.other next.1.round)) := by
  cases pc with
  | recvHave mine =>
    rcases hpending with heq | ⟨⟨_, _, h⟩, -⟩
    · obtain ⟨rfl, rfl⟩ := hexp
      cases heq
      exact ⟨⟨rfl, rfl⟩, rfl, rfl, List.suffix_refl _, Or.inl rfl⟩
    · cases h
  | recvWant =>
    rcases hpending with heq | ⟨⟨_, _, h⟩, -⟩
    · cases hexp
      cases heq
      exact ⟨⟨rfl, rfl⟩, rfl, rfl, List.suffix_refl _, Or.inl rfl⟩
    · cases h
  | admitting admitted budget =>
    have hsuffix : message :: unread <:+ S.exchange x.other 2 := by
      rcases hpending with heq | ⟨-, hsuffix⟩
      · exact heq ▸ List.suffix_rfl
      · exact hsuffix
    rcases suffix_exchange hsuffix with ⟨bytes, rfl, hne⟩ | ⟨rfl, rfl⟩
    · have hadmitted : ∃ admitted' budget', (syncStep S.crates (S.party x).cfg store
          (.admitting admitted budget) (.receive nowMs (.ok (.bundle bytes)))).1 =
          .admitting admitted' budget' := by
        change ∃ admitted' budget', (syncAdmit S.crates (S.party x).cfg nowMs store admitted budget
          bytes).1 = .admitting admitted' budget'
        unfold syncAdmit
        cases store.admitChecked S.crates (S.party x).cfg nowMs bytes (some budget) with
        | ok s' => exact ⟨_, _, rfl⟩
        | error e => exact ⟨_, _, rfl⟩
      have htail : unread <:+ S.exchange x.other 2 :=
        (List.suffix_cons _ _).trans hsuffix
      obtain ⟨admitted', budget', hnext⟩ := hadmitted
      intro next
      have hpc : next.1 = .admitting admitted' budget' := hnext
      rw [hpc]
      exact ⟨trivial, rfl, rfl, List.nil_suffix, Or.inr ⟨⟨_, _, rfl⟩, hne, htail⟩⟩
    · exact ⟨⟨admitted, rfl⟩, rfl, rfl, List.suffix_refl _, Or.inl rfl⟩
  | _ => cases hwait

/-- A session that waits has sent all of its exchange. -/
lemma ahead_of_waiting (hwait : pc.waiting = true) : S.ahead x pc = S.script x (pc.round + 1) := by
  cases pc with
  | recvHave mine => rfl
  | recvWant => rfl
  | admitting admitted budget => rfl
  | _ => cases hwait

/-- A session that runs on has a message of its exchange to send. -/
lemma rest_lt_ahead (hwait : pc.waiting = false) (hfin : pc.isFinished = false) :
    S.rest x (pc.round + 1) < (S.framed (S.ahead x pc)).length := by
  have hround : ∀ k message messages, S.exchange x k = message :: messages →
      S.rest x (k + 1) < (S.framed (S.script x k)).length := by
    intro k message messages heq
    have hpos : 0 < (S.framed (message :: messages)).length := framed_pos messages
    have hrest := S.rest_eq (x := x) k
    rw [heq] at hrest
    change S.rest x (k + 1) < S.rest x k
    omega
  have hlast : ∀ pushed : List Bytes,
      0 < (S.framed (pushed.map .bundle ++ [.done])).length := by
    intro pushed
    cases pushed with
    | nil => exact framed_pos _
    | cons bytes pushed => exact framed_pos _
  cases pc with
  | sweep => exact hround 0 _ _ rfl
  | snapshot => exact hround 0 _ _ rfl
  | sendHave mine => exact hround 0 _ _ rfl
  | sendWant want => exact hround 1 _ _ rfl
  | collect theirs => exact hlast (S.toSend x)
  | sendBundles toSend => exact hlast toSend
  | recvHave mine => cases hwait
  | recvWant => cases hwait
  | admitting admitted budget => cases hwait
  | finished result => cases hfin

namespace Streams

variable (h : S.Streams x e coming unread)

include h

lemma length_stream :
    e.received.length + e.inbox.length + coming.length = (S.framed unread).length := by
  rw [← h.stream, List.length_append, List.length_append]

/-- A session that sends has read nothing of its exchange. -/
lemma unread_eq (hsending : e.outgoing ≠ [] ∨ e.pc.waiting = false) :
    unread = S.script x.other e.pc.round := by
  rcases h.pending with heq | ⟨hout, ⟨admitted, budget, hpc⟩, -⟩
  · exact heq
  · rcases hsending with hne | hwait
    · exact absurd hout hne
    · rw [hpc] at hwait
      cases hwait

lemma unread_suffix : unread <:+ S.script x.other e.pc.round := by
  rcases h.pending with heq | ⟨-, -, -, hsuffix⟩
  · exact heq ▸ List.suffix_rfl
  · exact hsuffix

/-- A session that has returned has written and read everything. -/
lemma of_finished (hfin : e.pc.isFinished = true) :
    S.toWrite x e = [] ∧ unread = [] ∧ e.inbox = [] ∧ coming = [] := by
  have hround : e.pc.round = 3 := by
    obtain ⟨result, hpc⟩ := SyncPc.exists_result hfin
    rw [hpc]
    rfl
  have hsending := h.sending
  have hunread := h.unread_suffix
  have hstream := h.stream
  rw [hround] at hsending hunread
  have hnil : unread = [] := List.suffix_nil.mp hunread
  rw [hnil] at hstream
  have hsplit := List.append_eq_nil_iff.mp hstream
  exact ⟨List.suffix_nil.mp hsending, hnil, (List.append_eq_nil_iff.mp hsplit.1).2, hsplit.2⟩

lemma writing (hfin : e.pc.isFinished = false) (hsending : e.outgoing ≠ [] ∨ e.pc.waiting = false) :
    Rounds.Writing (S.rest x) (S.rest x.other) e.pc.round (S.toWrite x e).length
      (e.inbox.length + coming.length) where
  left := by
    rw [toWrite, List.length_append]
    cases hwait : e.pc.waiting with
    | false =>
      have hlt := S.rest_lt_ahead (x := x) hwait hfin
      omega
    | true =>
      have hout : e.outgoing ≠ [] := hsending.resolve_right (by simp [hwait])
      have hpos := List.length_pos_iff.mpr hout
      rw [ahead_of_waiting hwait, rest]
      omega
  within := h.sending.length_le
  waits := by
    have hlen := h.length_stream
    rw [h.received_nil hsending, h.unread_eq hsending] at hlen
    rw [List.length_nil] at hlen
    rw [rest]
    omega

/-- A session that waits is to read a message of its exchange. -/
lemma unread_cons (hwait : e.pc.waiting = true) :
    ∃ message messages, unread = message :: messages ∧
      S.script x.other (e.pc.round + 1) <:+ messages := by
  have hpending := h.pending
  cases hpc : e.pc with
  | recvHave mine =>
    rw [hpc] at hpending
    rcases hpending with rfl | ⟨-, ⟨_, _, hadmitting⟩, -⟩
    · exact ⟨_, _, rfl, List.suffix_refl _⟩
    · cases hadmitting
  | recvWant =>
    rw [hpc] at hpending
    rcases hpending with rfl | ⟨-, ⟨_, _, hadmitting⟩, -⟩
    · exact ⟨_, _, rfl, List.suffix_refl _⟩
    · cases hadmitting
  | admitting admitted budget =>
    have hne : unread ≠ [] := by
      rw [hpc] at hpending
      rcases hpending with rfl | ⟨-, -, hne, -⟩
      · simp [SyncPc.round, script, exchange]
      · exact hne
    obtain ⟨message, messages, rfl⟩ := List.exists_cons_of_ne_nil hne
    exact ⟨message, messages, rfl, List.nil_suffix⟩
  | _ =>
    rw [hpc] at hwait
    cases hwait

lemma reading (hout : e.outgoing = []) (hwait : e.pc.waiting = true) :
    Rounds.Reading (S.rest x) (S.rest x.other) e.pc.round (S.toWrite x e).length
      (e.inbox.length + coming.length) where
  wrote := by rw [toWrite, hout, ahead_of_waiting hwait, List.nil_append, rest]
  left := by
    have hlen := h.length_stream
    obtain ⟨message, messages, rfl, hsuffix⟩ := h.unread_cons hwait
    have hrest : S.rest x.other (e.pc.round + 1) ≤ (S.framed messages).length :=
      (S.framed_suffix hsuffix).length_le
    have hstream := h.stream
    rw [framed_cons, List.append_assoc] at hstream
    have hlt := h.received.length_lt ⟨_, hstream⟩
    rw [framed_cons, List.length_append] at hlen
    omega
  within := by
    have hle := (S.framed_suffix h.unread_suffix).length_le
    have hlen := h.length_stream
    rw [rest]
    omega

lemma place (hfin : e.pc.isFinished = false) :
    Rounds.Writing (S.rest x) (S.rest x.other) e.pc.round (S.toWrite x e).length
        (e.inbox.length + coming.length) ∨
      Rounds.Reading (S.rest x) (S.rest x.other) e.pc.round (S.toWrite x e).length
        (e.inbox.length + coming.length) := by
  by_cases hout : e.outgoing = []
  · cases hwait : e.pc.waiting with
    | true => exact Or.inr (h.reading hout hwait)
    | false => exact Or.inl (h.writing hfin (Or.inr hwait))
  · exact Or.inl (h.writing hfin (Or.inl hout))

/-- A local section changes neither what has been read nor the bytes to write. -/
lemma work {outgoing : Bytes} (hfin : e.pc.isFinished = false) (hwait : e.pc.waiting = false)
    (hexp : S.Expected x store pc) (hround : pc.round = e.pc.round)
    (hbytes : outgoing ++ S.framed (S.ahead x pc) = S.toWrite x e) :
    S.Streams x { e with pc, store, outgoing } coming unread where
  expected := hexp
  sending := by
    change outgoing ++ S.framed (S.ahead x pc) <:+ S.framed (S.script x pc.round)
    rw [hbytes, hround]
    exact h.sending
  pending := by
    rw [hround]
    exact Or.inl (h.unread_eq (Or.inr hwait))
  taken := h.taken
  stream := h.stream
  received := h.received
  received_nil := fun _ => h.received_nil (Or.inr hwait)
  dropped := by
    intro hdrop
    rw [h.dropped hdrop] at hfin
    cases hfin

lemma wrote {b : UInt8} {more : Bytes} (hout : e.outgoing = b :: more) :
    S.Streams x { e with outgoing := more } coming unread where
  expected := h.expected
  sending := by
    have hsending := h.sending
    rw [toWrite, hout, List.cons_append] at hsending
    exact (List.suffix_cons _ _).trans hsending
  pending := Or.inl (h.unread_eq (Or.inl (by simp [hout])))
  taken := h.taken
  stream := h.stream
  received := h.received
  received_nil := fun _ => h.received_nil (Or.inl (by simp [hout]))
  dropped := h.dropped

lemma arrived {b : UInt8} {more : Bytes} (hcoming : coming = b :: more) :
    S.Streams x { e with inbox := e.inbox ++ [b] } more unread where
  expected := h.expected
  sending := h.sending
  pending := h.pending
  taken := h.taken
  stream := by
    rw [← h.stream, hcoming]
    simp
  received := h.received
  received_nil := h.received_nil
  dropped := h.dropped

lemma read {b : UInt8} {more : Bytes} (hout : e.outgoing = []) (hwait : e.pc.waiting = true)
    (hinbox : e.inbox = b :: more) (hpart : Frames.Partial 4 (e.received ++ [b])) :
    S.Streams x { e with received := e.received ++ [b], inbox := more } coming unread where
  expected := h.expected
  sending := h.sending
  pending := h.pending
  taken := h.taken
  stream := by
    rw [← h.stream, hinbox]
    simp
  received := hpart
  received_nil := by
    rintro (hne | hrunning)
    · exact absurd hout hne
    · rw [hwait] at hrunning
      cases hrunning
  dropped := h.dropped

end Streams

/-- The last byte of a message that fits its prefix. -/
lemma Streams.next {message : SyncMessage} {messages : List SyncMessage} {b : UInt8} {more : Bytes}
    (h : S.Streams x e coming (message :: messages)) (nowMs : UInt64) (hout : e.outgoing = [])
    (hwait : e.pc.waiting = true) (hinbox : e.inbox = b :: more) (hfits : S.Fits message)
    (hframe : e.received ++ [b] = Frames.frame 4 (S.encoded message)) :
    let next := syncStep S.crates (S.party x).cfg e.store e.pc (.receive nowMs (.ok message))
    S.ahead x next.1 = S.ahead x e.pc ∧ next.1.sections = e.pc.sections ∧
      S.Streams x ({ e with received := [], inbox := more }.after next) coming messages := by
  have hpending : message :: messages = S.script x.other e.pc.round ∨
      ((∃ admitted budget, e.pc = .admitting admitted budget) ∧
        message :: messages <:+ S.script x.other e.pc.round) :=
    h.pending.imp_right fun ⟨_, hadmitting, _, hsuffix⟩ => ⟨hadmitting, hsuffix⟩
  obtain ⟨hexp, hahead, hsections, hsuffix, hnext⟩ :=
    syncStep_next nowMs h.expected hwait hpending
  refine ⟨hahead, hsections, ?_⟩
  constructor
  · exact hexp
  · simp only [toWrite, StreamEnd.after, hout, List.nil_append]
    rw [hahead]
    exact framed_suffix hsuffix
  · exact hnext.imp_right fun ⟨hadmitting, hne, htail⟩ => ⟨hout, hadmitting, hne, htail⟩
  · obtain ⟨before, heq, hbefore⟩ := h.taken
    refine ⟨before ++ [message], by simp [heq], ?_⟩
    intro message' hmem
    rcases List.mem_append.mp hmem with hold | hnew
    · exact hbefore message' hold
    · rw [List.mem_singleton.mp hnew]
      exact hfits
  · have hstream := h.stream
    have hmove : e.received ++ (b :: more) ++ coming = (e.received ++ [b]) ++ (more ++ coming) := by
      simp
    rw [hinbox, hmove, hframe, framed_cons] at hstream
    exact List.append_cancel_left hstream
  · exact Frames.partial_nil (by omega)
  · exact fun _ => rfl
  · intro hdrop
    have hfin := h.dropped hdrop
    rw [SyncPc.not_isFinished_of_waiting hwait] at hfin
    cases hfin

/-- What is left of a session: bytes to write, bytes to read, messages and local sections. -/
def left (x : Side) (e : StreamEnd) : ℕ :=
  2 * (S.toWrite x e).length + e.inbox.length + (S.ahead x e.pc).length + e.pc.sections

/-- A session has failed. -/
def Failed (w : StreamPair) : Prop := ∃ x error, (w x).pc = .finished (.error error)

/-- What `advance` can do. -/
inductive Advanced (w : StreamPair) (x : Side) : StreamPair → Prop
  | idle (h : ¬S.CanStep w x) : Advanced w x w
  | wrote (b : UInt8) (more : Bytes) (hout : (w x).outgoing = b :: more)
      (hroom : (w x.other).inbox.length < S.capacity) :
      Advanced w x (Function.update (Function.update w x { w x with outgoing := more }) x.other
        { w x.other with inbox := (w x.other).inbox ++ [b] })
  | moved (e : StreamEnd) (unread : List SyncMessage)
      (h : S.Streams x e (S.toWrite x.other (w x.other)) unread)
      (hwrite : S.toWrite x e = S.toWrite x (w x)) (hleft : S.left x e < S.left x (w x)) :
      Advanced w x (Function.update w x e)
  | failed (e : StreamEnd) (error : MeshError) (hpc : e.pc = .finished (.error error))
      (message : SyncMessage) (hmem : message ∈ S.script x.other 0) (hfits : ¬S.Fits message) :
      Advanced w x (Function.update w x e)

lemma encoded_spec (hjson : S.json.RoundTrip) (message : SyncMessage) :
    S.json.toVec message = .ok (S.encoded message) ∧
      S.json.fromSlice (S.encoded message) = .ok message := by
  obtain ⟨bytes, hvec, hslice⟩ := hjson message
  have hencoded : S.encoded message = bytes := by rw [encoded, hvec]
  rw [hencoded]
  exact ⟨hvec, hslice⟩

/-- A session whose peer has gone away has read and written everything. -/
lemma Streaming.of_dropped (h : S.Streaming w) (x : Side) (hdrop : (w x.other).dropped = true) :
    (w x).outgoing = [] ∧ S.toWrite x.other (w x.other) = [] := by
  obtain ⟨unread, hother⟩ := h x.other
  obtain ⟨hwrite, -, -, hcoming⟩ := hother.of_finished (hother.dropped hdrop)
  rw [Side.other_other] at hcoming
  exact ⟨(List.append_eq_nil_iff.mp hcoming).1, hwrite⟩

/-- A session that has no step to take stays as it is. -/
lemma advance_of_not_canStep (nowMs : UInt64) (h : ¬S.CanStep w x) : S.advance w x nowMs = w := by
  unfold StreamSync.advance
  cases hout : (w x).outgoing with
  | cons b more =>
    have hne : (w x).outgoing ≠ [] := by simp [hout]
    rw [CanStep, if_neg hne, not_or, Bool.not_eq_true] at h
    simp only [StreamSync.write, h.1, if_neg h.2]
    exact if_neg Bool.false_ne_true
  | nil =>
    rw [CanStep, if_pos hout] at h
    cases hwait : (w x).pc.waiting with
    | true =>
      have hfin := SyncPc.not_isFinished_of_waiting hwait
      have hstarved : (w x).inbox = [] ∧ (w x.other).dropped = false := by
        simpa [hfin, hwait, not_or] using h
      simp only [StreamSync.read, hstarved.1, hstarved.2]
      rfl
    | false =>
      have hfin : (w x).pc.isFinished = true := by simpa [hwait] using h
      obtain ⟨result, hpc⟩ := SyncPc.exists_result hfin
      have hevent : S.event w x (.advance (S.party x).sweepMs (S.party x).order) =
          ((w x).pc, (w x).store, none) := by
        rw [event, hpc]
        rfl
      simp only [StreamSync.work, hevent, StreamEnd.after, Function.update_eq_self]
      rfl

lemma Streaming.write (h : S.Streaming w) {b : UInt8} {more : Bytes}
    (hout : (w x).outgoing = b :: more) (hcan : S.CanStep w x) :
    S.Advanced w x (S.write w x b more) := by
  have hne : (w x).outgoing ≠ [] := by simp [hout]
  have hdrop : (w x.other).dropped = false := by
    by_contra hdrop
    exact hne (h.of_dropped x (by simpa using hdrop)).1
  rw [CanStep, if_neg hne, hdrop] at hcan
  have hroom := hcan.resolve_left Bool.false_ne_true
  unfold StreamSync.write
  rw [hdrop, if_neg Bool.false_ne_true, if_pos hroom]
  exact .wrote b more hout hroom

/-- A local section that leaves the bytes to write as they are. -/
lemma Streaming.moved {outgoing : Bytes} (h : S.Streaming w)
    (hwait : (w x).pc.waiting = false) (hfin : (w x).pc.isFinished = false)
    (hexp : S.Expected x store pc) (hround : pc.round = (w x).pc.round)
    (hbytes : outgoing ++ S.framed (S.ahead x pc) = S.toWrite x (w x))
    (hless : (S.ahead x pc).length + pc.sections <
      (S.ahead x (w x).pc).length + (w x).pc.sections) :
    S.Advanced w x (Function.update w x { w x with pc, store, outgoing }) := by
  obtain ⟨unread, hx⟩ := h x
  refine .moved _ unread (hx.work hfin hwait hexp hround hbytes) hbytes ?_
  have hlen : (S.toWrite x { w x with pc, store, outgoing }).length = (S.toWrite x (w x)).length :=
    congrArg List.length hbytes
  simp only [left, hlen]
  omega

lemma Streaming.work (hjson : S.json.RoundTrip) (h : S.Streaming w) (hout : (w x).outgoing = [])
    (hwait : (w x).pc.waiting = false) (hfin : (w x).pc.isFinished = false) :
    S.Advanced w x (S.work w x) := by
  obtain ⟨unread, hx⟩ := h x
  obtain ⟨hexp, hround, ⟨hnone, hahead, hless⟩ | ⟨message, hsome, hahead, hless⟩⟩ :=
    syncStep_work hx.expected hwait hfin
  · have hwork : S.work w x = Function.update w x ((w x).after
        (S.event w x (.advance (S.party x).sweepMs (S.party x).order))) := by
      simp only [StreamSync.work, event, hnone]
    rw [hwork]
    refine h.moved hwait hfin hexp hround ?_ ?_
    · rw [event, hahead, toWrite]
    · rw [event, hahead]
      omega
  · have hwork : S.work w x = Function.update w x { (w x).after
        (S.event w x (.advance (S.party x).sweepMs (S.party x).order)) with
          outgoing := Frames.frame 4 (S.encoded message) } := by
      simp only [StreamSync.work, event, hsome, (encoded_spec hjson message).1]
    rw [hwork]
    refine h.moved hwait hfin hexp hround ?_ ?_
    · rw [toWrite, hout, hahead, framed_cons, List.nil_append]
      rfl
    · simp only [StreamEnd.after, event, hahead, hless, List.length_cons]
      omega

/-- The message that a session is to read is one of its peer's. -/
lemma Streams.mem_script {message : SyncMessage} {messages : List SyncMessage}
    (h : S.Streams x e coming (message :: messages)) : message ∈ S.script x.other 0 := by
  obtain ⟨before, heq, -⟩ := h.taken
  rw [heq]
  exact List.mem_append_right _ List.mem_cons_self

lemma Streaming.read (hjson : S.json.RoundTrip) (hwhole : S.json.Whole) (h : S.Streaming w)
    (nowMs : UInt64) {b : UInt8} {more : Bytes} (hout : (w x).outgoing = [])
    (hwait : (w x).pc.waiting = true) (hinbox : (w x).inbox = b :: more) :
    S.Advanced w x (S.read w x nowMs) := by
  obtain ⟨unread, hx⟩ := h x
  obtain ⟨message, messages, rfl, -⟩ := hx.unread_cons hwait
  have hstream := hx.stream
  rw [hinbox, framed_cons] at hstream
  have hpre : (w x).received ++ [b] <+:
      Frames.frame 4 (S.encoded message) ++ S.framed messages := by
    rw [← hstream]
    exact ⟨more ++ S.toWrite x.other (w x.other), by simp⟩
  rcases Frames.read_byte hx.received hpre with ⟨hnone, hpart⟩ | ⟨hlen, hsome⟩
  · simp only [StreamSync.read, hinbox, hnone]
    refine .moved _ _ (hx.read hout hwait hinbox hpart) rfl ?_
    simp only [left, toWrite, hinbox, List.length_cons]
    omega
  · simp only [StreamSync.read, hinbox, hsome]
    by_cases hfits : S.Fits message
    · have hframe := Frames.eq_frame_of_length hfits hpre hlen
      have hbody : (S.encoded message).take ((S.encoded message).length % 256 ^ 4) =
          S.encoded message := by
        rw [Nat.mod_eq_of_lt (show _ < 256 ^ 4 from hfits), List.take_length]
      have hdecode : decodeMsg S.json (S.encoded message) = .ok message := by
        rw [decodeMsg, (encoded_spec hjson message).2]
      rw [hbody, hdecode]
      obtain ⟨hahead, hsections, hnext⟩ := hx.next nowMs hout hwait hinbox hfits hframe
      refine .moved _ _ hnext ?_ ?_
      · simp only [toWrite, StreamEnd.after, event, hahead]
      · simp only [left, toWrite, StreamEnd.after, event, hahead, hsections, hinbox,
          List.length_cons]
        omega
    · have hlong : 256 ^ 4 ≤ (S.encoded message).length := not_lt.mp hfits
      have hcut : (S.encoded message).length % 256 ^ 4 < (S.encoded message).length :=
        (Nat.mod_lt _ (by omega)).trans_le hlong
      obtain ⟨error, herror⟩ := hwhole message _ (encoded_spec hjson message).1 _ hcut
      refine .failed _ (.link ("sync message decode failed: " ++ error)) ?_ message hx.mem_script hfits
      simp only [decodeMsg, herror, event, StreamEnd.after, syncStep, hwait, if_true]

lemma Streaming.advance (hjson : S.json.RoundTrip) (hwhole : S.json.Whole) (h : S.Streaming w)
    (x : Side) (nowMs : UInt64) : S.Advanced w x (S.advance w x nowMs) := by
  by_cases hcan : S.CanStep w x
  · unfold StreamSync.advance
    cases hout : (w x).outgoing with
    | cons b more => exact h.write hout hcan
    | nil =>
      rw [CanStep, if_pos hout] at hcan
      cases hwait : (w x).pc.waiting with
      | true =>
        cases hinbox : (w x).inbox with
        | cons b more => exact h.read hjson hwhole nowMs hout hwait hinbox
        | nil =>
          -- a peer that has gone away has written everything
          obtain ⟨unread, hx⟩ := h x
          have hdrop := (hcan.2 hwait).resolve_left (fun hne => hne hinbox)
          have hreading := (hx.reading hout hwait).left
          rw [hinbox, (h.of_dropped x hdrop).2] at hreading
          exact absurd hreading (Nat.not_lt_zero _)
      | false => exact h.work hjson hout hwait hcan.1
  · rw [advance_of_not_canStep nowMs hcan]
    exact .idle hcan

end Events

end StreamSync

end Parda.Mesh
