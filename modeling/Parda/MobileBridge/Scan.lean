import Mathlib.Data.List.Infix
import Parda.MobileBridge.Radio

/-!
# Phones that scan for each other

Model of `scan` of `mobile-bridge/src/radio.rs` with the streams of `mobile-bridge/src/pending.rs`
and the scanner of `MeshBridge.kt`, on any number of phones: their radios put advertisements on the
air, their scanners hear some of what is on the air, and their sync loops (`mesh/src/transport.rs`)
connect to what the scans hand out. Devices that are no phones may advertise anything.
-/

namespace Parda.MobileBridge

open Mesh Machine Oneshots

/-- `ScanResultBytes`, with the phone whose advertisement it is, if it is one's. -/
structure ScanResult where
  peerHandle : Bytes
  token : Bytes
  phone : Option ℕ

/-- What the task of a scan makes of a result. -/
def ScanResult.sighting (r : ScanResult) : Option PeerSighting :=
  if h : r.token.length = advertTokenLen then some ⟨.bytes r.peerHandle, ⟨r.token, h⟩⟩ else none

def channelCapacity : ℕ := 64

/-- One `scan`: whether its stream is registered, its callback is with the scanner, its task is
running and its receiver is there, the two channels and the sighting that the task is sending, with
the results that entered the first channel, those the task has read, and the sightings that were
received. -/
structure Scan where
  registered : Bool := true
  scanning : Bool := true
  running : Bool := true
  wanted : Bool := true
  raw : List ScanResult := []
  sending : Option PeerSighting := none
  out : List PeerSighting := []
  heard : List ScanResult := []
  read : List ScanResult := []
  handedOut : List PeerSighting := []

namespace Scan

/-- `push_stream`. -/
def push (s : Scan) (r : ScanResult) : Scan :=
  if s.scanning ∧ s.registered ∧ s.running ∧ s.raw.length < channelCapacity then
    { s with raw := s.raw ++ [r], heard := s.heard ++ [r] }
  else s

/-- The end of the task. The scanner is stopped if there is one. -/
def finish (s : Scan) (scanner : Bool) : Scan :=
  { s with
    registered := false
    scanning := s.scanning && !scanner
    running := false
    sending := none }

/-- The task reads a result. -/
def forward (s : Scan) : Scan :=
  if s.running ∧ s.sending = none then
    match s.raw with
    | [] => s
    | r :: rest => { s with raw := rest, sending := r.sighting, read := s.read ++ [r] }
  else s

/-- The sighting that the task is sending finds room, or nobody to receive it. -/
def deliver (s : Scan) (scanner : Bool) : Scan :=
  match s.sending with
  | none => s
  | some sighting =>
    if s.wanted then
      if s.out.length < channelCapacity then
        { s with sending := none, out := s.out ++ [sighting] }
      else s
    else s.finish scanner

def deadline (s : Scan) (scanner : Bool) : Scan :=
  if s.running ∧ s.sending = none then s.finish scanner else s

def dropStream (s : Scan) : Scan := { s with wanted := false }

/-- The receiver takes a sighting. -/
def recv (s : Scan) : Option (PeerSighting × Scan) :=
  match s.out with
  | sighting :: rest =>
    if s.wanted then
      some (sighting, { s with out := rest, handedOut := s.handedOut ++ [sighting] })
    else none
  | [] => none

/-- The runtime is dropped with its tasks. Nothing is told to the registry or to the scanner. -/
def abort (s : Scan) : Scan := { s with running := false, wanted := false, sending := none }

/-- What was received from the scan, then what will be unless it is dropped. -/
def sightings (s : Scan) : List PeerSighting := s.handedOut ++ s.out ++ s.sending.toList

end Scan

structure Phone where
  radio : AndroidRadio := {}
  scans : ℕ → Option Scan := fun _ => none

/-- A step of a phone. A scanner hears a device that is no phone, or what a phone's radio has on the
air for one of its requests. -/
inductive PhoneLabel where
  | radio (label : RadioLabel)
  | scan (scanner : Bool)
  | scanFails
  | hear (streamId : ℕ) (address payload : Bytes)
  | hearPhone (streamId : ℕ) (address : Bytes) (phone requestId : ℕ)
  | forward (streamId : ℕ)
  | deliver (streamId : ℕ) (scanner : Bool)
  | deadline (streamId : ℕ) (scanner : Bool)
  | dropStream (streamId : ℕ)
  | abort (streamId : ℕ)
  | syncNext (streamId : ℕ)

namespace Phone

def onScan (p : Phone) (streamId : ℕ) (f : Scan → Scan) : Phone :=
  { p with scans := Function.update p.scans streamId ((p.scans streamId).map f) }

/-- `scan`, with the id of its stream. -/
def startScan (p : Phone) (scanner : Bool) : Phone where
  radio := p.radio.step .drawId
  scans := Function.update p.scans p.radio.pending.nextId (some { scanning := scanner })

/-- `connect` of the sync loop. A scan hands out nothing but bytes. -/
def connect (p : Phone) : PeerHandle → Phone
  | .bytes peerHandle => { p with radio := p.radio.step (.begin (.connect peerHandle)) }
  | .simulated _ => p

/-- The sync loop receives a sighting and connects to it. -/
def syncNext (p : Phone) (streamId : ℕ) : Phone :=
  match (p.scans streamId).bind Scan.recv with
  | some (sighting, s) => (p.onScan streamId fun _ => s).connect sighting.handle
  | none => p

end Phone

/-- The label is no start of a `connect`: those are the sync loop's. -/
def RadioLabel.isOwn : RadioLabel → Bool
  | .begin (.connect _) => false
  | _ => true

abbrev PhoneMesh : Type := ℕ → Phone

namespace PhoneMesh

/-- What a phone does, among the others. -/
def phoneStep (w : PhoneMesh) (p : Phone) : PhoneLabel → Phone
  | .radio label => if label.isOwn then { p with radio := p.radio.step label } else p
  | .scan scanner => p.startScan scanner
  | .scanFails => { p with radio := p.radio.step .drawId }
  | .hear streamId address payload => p.onScan streamId (·.push ⟨address, payload, none⟩)
  | .hearPhone streamId address phone requestId =>
    match (w phone).radio.onAir.find? (·.1 = requestId) with
    | none => p
    | some set => p.onScan streamId (·.push ⟨address, set.2, some phone⟩)
  | .forward streamId => p.onScan streamId Scan.forward
  | .deliver streamId scanner => p.onScan streamId (·.deliver scanner)
  | .deadline streamId scanner => p.onScan streamId (·.deadline scanner)
  | .dropStream streamId => p.onScan streamId Scan.dropStream
  | .abort streamId => p.onScan streamId Scan.abort
  | .syncNext streamId => p.syncNext streamId

def step (w : PhoneMesh) (a : ℕ × PhoneLabel) : PhoneMesh :=
  Function.update w a.1 (w.phoneStep (w a.1) a.2)

def start : PhoneMesh := fun _ => {}

end PhoneMesh

/-- The results of a scan that no phone has advertised, as sightings. -/
def Scan.foreign (s : Scan) : List PeerSighting :=
  (s.heard.filter fun r => r.phone = none).filterMap ScanResult.sighting

/-- The scan hands out, in order, what was heard from devices that are no phones, and all of it once
the task has read what was heard. -/
structure Scan.SightsForeign (s : Scan) : Prop where
  in_order : s.sightings <+: s.foreign
  complete : s.running = true → s.raw = [] → s.sightings = s.foreign

/-- A scan heard the peer from a device that is no phone, with a payload of a token's length. -/
def Phone.HeardForeign (p : Phone) (peerHandle : Bytes) : Prop :=
  ∃ streamId s r, p.scans streamId = some s ∧ r ∈ s.heard ∧ r.phone = none ∧
    r.peerHandle = peerHandle ∧ r.token.length = advertTokenLen

/-- The sync loop connects to nothing but such devices. -/
def Phone.DialsForeign (p : Phone) : Prop :=
  ∀ id peerHandle, p.radio.pending.request id = some (.connect peerHandle) →
    p.HeardForeign peerHandle

section Radio

open AndroidRadio Oneshots.Registry

variable {s s' : AndroidRadio}

/-- The step begins no `connect` and puts nothing but tokens on the air. -/
structure Advertises (s s' : AndroidRadio) : Prop where
  request : ∀ id peerHandle, s'.pending.request id = some (.connect peerHandle) →
    s.pending.request id = some (.connect peerHandle)
  nextId : s.pending.nextId ≤ s'.pending.nextId
  onAir : ∀ set ∈ s'.onAir, set ∈ s.onAir ∨ ∃ token, set.2 = toWire token

lemma Advertises.of_eq (hrequest : s'.pending.request = s.pending.request)
    (hnextId : s'.pending.nextId = s.pending.nextId)
    (honAir : ∀ set ∈ s'.onAir, set ∈ s.onAir) : Advertises s s' where
  request id peerHandle h := by rwa [hrequest] at h
  nextId := hnextId.ge
  onAir set hset := Or.inl (honAir set hset)

/-- The step is about neither. -/
lemma Advertises.of_same (hpending : s'.pending = s.pending) (honAir : s'.onAir = s.onAir) :
    Advertises s s' := by
  apply Advertises.of_eq
  · rw [hpending]
  · rw [hpending]
  · exact fun _ hset => honAir ▸ hset

lemma advertises_refl : Advertises s s := .of_same rfl rfl

lemma Advertises.resolveOneshot (h : Advertises s s') (id : ℕ)
    (result : AndroidRadio.OneshotResult) :
    Advertises s (s'.resolveOneshot id result) where
  request := by
    unfold AndroidRadio.resolveOneshot
    rw [request_resolve]
    exact h.request
  nextId := by
    unfold AndroidRadio.resolveOneshot
    rw [nextId_resolve]
    exact h.nextId
  onAir := h.onAir

lemma advertises_answer (hpending : s'.pending = s.pending) (honAir : s'.onAir = s.onAir) (id : ℕ)
    (result : AndroidRadio.OneshotResult) : Advertises s (s'.resolveOneshot id result) :=
  (Advertises.of_same hpending honAir).resolveOneshot id result

lemma advertises_ensureGattServer (p : Platform) : Advertises s (s.ensureGattServer p) := by
  unfold ensureGattServer
  split
  · exact advertises_refl
  · exact .of_same rfl rfl

lemma advertises_startAdvertise (p : Platform) (id : ℕ) (token : AdvertToken) :
    Advertises s (s.startAdvertise p id (toWire token)) := by
  have hserver := advertises_ensureGattServer (s := s) p
  unfold startAdvertise
  split
  · dsimp only
    split
    · refine ⟨hserver.request, hserver.nextId, fun set hset => ?_⟩
      rcases List.mem_cons.mp hset with rfl | hset
      · exact Or.inr ⟨token, rfl⟩
      · exact hserver.onAir set (List.mem_filter.mp hset).1
    · exact hserver.resolveOneshot _ _
  · exact advertises_answer rfl rfl _ _

lemma advertises_send (p : Platform) (id linkHandle : ℕ) :
    Advertises s (s.send p id linkHandle) := by
  unfold send
  split
  · split
    · split
      · exact .of_same rfl rfl
      · apply advertises_answer
        · rfl
        · rfl
    · exact advertises_answer rfl rfl _ _
  · split
    · split
      · exact advertises_answer rfl rfl _ _
      · exact advertises_answer rfl rfl _ _
    · exact advertises_answer rfl rfl _ _

lemma advertises_call (p : Platform) (id : ℕ) (operation : Operation) :
    Advertises s (s.call p id operation) := by
  cases operation with
  | advertise token => exact advertises_startAdvertise p id token
  | connect peerHandle =>
    dsimp only [call, connect]
    split
    · exact .of_same rfl rfl
    · exact advertises_answer rfl rfl _ _
  | accept =>
    have hserver := advertises_ensureGattServer (s := s) p
    exact ⟨hserver.request, hserver.nextId, hserver.onAir⟩
  | send linkHandle bytes => exact advertises_send p id linkHandle
  | recv linkHandle => exact .of_same rfl rfl

lemma advertises_deliverRecv (linkHandle : ℕ) (bytes : Option Bytes) :
    Advertises s (s.deliverRecv linkHandle bytes) := by
  unfold deliverRecv
  split
  · exact advertises_refl
  · apply advertises_answer
    · rfl
    · rfl

lemma advertises_begin {operation : Operation} (hown : (RadioLabel.begin operation).isOwn = true) :
    Advertises s (s.step (.begin operation)) where
  request id peerHandle h := by
    by_cases hid : id = s.pending.nextId
    · subst hid
      obtain rfl : operation = .connect peerHandle := by
        simpa [step, register] using h
      exact absurd hown Bool.false_ne_true
    · rwa [← request_register_of_ne (k := operation) hid]
  nextId := Nat.le_succ _
  onAir _ := Or.inl

lemma advertises_step {a : RadioLabel} (hown : a.isOwn = true) : Advertises s (s.step a) := by
  cases a with
  | drawId => exact ⟨fun _ _ => id, Nat.le_succ _, fun _ => Or.inl⟩
  | begin operation => exact advertises_begin hown
  | callBridge id platform =>
    dsimp only [step]
    split
    · split
      · have hcall := advertises_call (s := { s with begun := s.begun.filter (· ≠ id) }) platform id
        exact ⟨(hcall _).request, (hcall _).nextId, (hcall _).onAir⟩
      · exact .of_same rfl rfl
    · exact advertises_refl
  | callFails id message =>
    dsimp only [step]
    split
    · split
      · exact .of_eq request_abandon nextId_abandon fun _ h => h
      · exact advertises_refl
    · exact advertises_refl
  | wake id =>
    dsimp only [step]
    split
    · exact advertises_refl
    · exact .of_eq request_take nextId_take fun _ h => h
  | drop id =>
    dsimp only [step]
    split
    · exact advertises_refl
    · exact .of_eq request_abandon nextId_abandon fun _ h => h
  | advertisingSetStarted id status =>
    dsimp only [step, onAdvertisingSetStarted]
    split
    · split
      · exact advertises_answer rfl rfl _ _
      · refine Advertises.resolveOneshot ?_ _ _
        exact .of_eq rfl rfl fun set hset => (List.mem_filter.mp hset).1
    · exact advertises_refl
  | servicesDiscovered gatt discovery =>
    dsimp only [step, onServicesDiscovered]
    split
    · cases discovery with
      | _ =>
        apply advertises_answer
        · rfl
        · rfl
    · exact advertises_refl
  | centralDisconnected gatt linkHandle => exact .of_same rfl rfl
  | characteristicChanged gatt linkHandle value =>
    dsimp only [step]
    split
    · exact advertises_deliverRecv linkHandle value
    · exact advertises_refl
  | characteristicWrite gatt linkHandle status =>
    dsimp only [step, onCharacteristicWrite]
    split
    · split
      · exact advertises_refl
      · apply advertises_answer
        · rfl
        · rfl
    · exact advertises_refl
  | serverConnected device =>
    dsimp only [step, onServerConnected]
    split
    · split
      · apply advertises_answer
        · rfl
        · rfl
      · exact .of_same rfl rfl
    · exact advertises_refl
  | serverDisconnected device linkHandle => exact .of_same rfl rfl
  | characteristicWriteRequest device linkHandle value =>
    dsimp only [step]
    split
    · exact advertises_deliverRecv linkHandle (some value)
    · exact advertises_refl

end Radio

section Scans

variable {s : Scan}

lemma sighting_eq_some {r : ScanResult} {sighting : PeerSighting}
    (h : r.sighting = some sighting) :
    r.token.length = advertTokenLen ∧ sighting.handle = .bytes r.peerHandle := by
  unfold ScanResult.sighting at h
  split_ifs at h with hlength
  exact ⟨hlength, by rw [← Option.some.inj h]⟩

/-- A phone advertises the tag with the token, which is no token. -/
lemma sighting_toWire (address : Bytes) (token : AdvertToken) (phone : Option ℕ) :
    ScanResult.sighting ⟨address, AndroidRadio.toWire token, phone⟩ = none := by
  have hlength : (AndroidRadio.toWire token).length = advertTokenLen + 2 := by
    simp only [AndroidRadio.toWire, List.length_append, List.Vector.toList_length]
    rfl
  exact dif_neg (by dsimp only; omega)

namespace Scan

/-- The task reads the results in turn and hands on those it has read, as long as it runs. -/
structure Inv (s : Scan) : Prop where
  heard_eq : s.running = true → s.heard = s.read ++ s.raw
  read_prefix : s.read <+: s.heard
  sightings_prefix : s.sightings <+: s.read.filterMap ScanResult.sighting
  sightings_eq : s.running = true → s.sightings = s.read.filterMap ScanResult.sighting
  phones : ∀ r ∈ s.heard, r.phone ≠ none → r.sighting = none

lemma heard_push (s : Scan) (r : ScanResult) : s.heard ⊆ (s.push r).heard := by
  unfold push
  split_ifs
  · exact List.subset_append_left _ _
  · exact List.Subset.refl _

lemma heard_forward (s : Scan) : s.heard ⊆ s.forward.heard := by
  unfold forward
  split_ifs
  · cases s.raw with
    | nil => exact List.Subset.refl _
    | cons r rest => exact List.Subset.refl _
  · exact List.Subset.refl _

lemma heard_deliver (s : Scan) (scanner : Bool) : s.heard ⊆ (s.deliver scanner).heard := by
  unfold deliver
  cases s.sending with
  | none => exact List.Subset.refl _
  | some sighting =>
    dsimp only
    split_ifs
    · exact List.Subset.refl _
    · exact List.Subset.refl _
    · exact List.Subset.refl _

lemma heard_deadline (s : Scan) (scanner : Bool) : s.heard ⊆ (s.deadline scanner).heard := by
  unfold deadline
  split_ifs
  · exact List.Subset.refl _
  · exact List.Subset.refl _

lemma inv_start (scanner : Bool) : Inv { scanning := scanner } :=
  ⟨fun _ => rfl, List.prefix_rfl, List.prefix_rfl, fun _ => rfl, nofun⟩

lemma Inv.push (h : s.Inv) {r : ScanResult} (hr : r.phone ≠ none → r.sighting = none) :
    (s.push r).Inv := by
  unfold Scan.push
  split_ifs with hpush
  · exact
      { heard_eq := fun hrunning => by
          change s.heard ++ [r] = s.read ++ (s.raw ++ [r])
          rw [h.heard_eq hrunning, List.append_assoc]
        read_prefix := h.read_prefix.trans (List.prefix_append _ _)
        sightings_prefix := h.sightings_prefix
        sightings_eq := h.sightings_eq
        phones := fun r' hr' => by
          rcases List.mem_append.mp hr' with hr' | hr'
          · exact h.phones r' hr'
          · rw [List.mem_singleton.mp hr']
            exact hr }
  · exact h

/-- The task ends, with what it was sending. -/
lemma Inv.stop (h : s.Inv) {s' : Scan} (hrunning : s'.running = false) (hheard : s'.heard = s.heard)
    (hread : s'.read = s.read) (hout : s'.sightings = s.handedOut ++ s.out) : s'.Inv where
  heard_eq h' := absurd (hrunning.symm.trans h') Bool.false_ne_true
  read_prefix := by
    rw [hheard, hread]
    exact h.read_prefix
  sightings_prefix := by
    rw [hread, hout]
    exact (List.prefix_append _ _).trans h.sightings_prefix
  sightings_eq h' := absurd (hrunning.symm.trans h') Bool.false_ne_true
  phones := by
    rw [hheard]
    exact h.phones

/-- A sighting moves on. -/
lemma Inv.shift (h : s.Inv) {s' : Scan} (hrunning : s'.running = s.running)
    (hheard : s'.heard = s.heard) (hread : s'.read = s.read) (hraw : s'.raw = s.raw)
    (hsightings : s'.sightings = s.sightings) : s'.Inv where
  heard_eq h' := by
    rw [hheard, hread, hraw]
    exact h.heard_eq (hrunning.symm.trans h')
  read_prefix := by
    rw [hheard, hread]
    exact h.read_prefix
  sightings_prefix := by
    rw [hsightings, hread]
    exact h.sightings_prefix
  sightings_eq h' := by
    rw [hsightings, hread]
    exact h.sightings_eq (hrunning.symm.trans h')
  phones := by
    rw [hheard]
    exact h.phones

lemma Inv.finish (h : s.Inv) (scanner : Bool) : (s.finish scanner).Inv :=
  h.stop rfl rfl rfl (List.append_nil _)

lemma Inv.abort (h : s.Inv) : s.abort.Inv := h.stop rfl rfl rfl (List.append_nil _)

lemma Inv.forward (h : s.Inv) : s.forward.Inv := by
  unfold Scan.forward
  split_ifs with hforward
  · obtain ⟨hrunning, hsending⟩ := hforward
    have hsightings : s.handedOut ++ s.out = s.read.filterMap ScanResult.sighting := by
      rw [← h.sightings_eq hrunning, sightings, hsending]
      exact (List.append_nil _).symm
    have hheard := h.heard_eq hrunning
    cases hraw : s.raw with
    | nil => exact h
    | cons r rest =>
      have hnext : s.handedOut ++ s.out ++ r.sighting.toList =
          (s.read ++ [r]).filterMap ScanResult.sighting := by
        rw [List.filterMap_append, hsightings]
        cases hr : r.sighting with
        | none => simp [hr]
        | some sighting => simp [hr]
      rw [hraw, List.append_cons] at hheard
      exact
        { heard_eq := fun _ => hheard
          read_prefix := ⟨rest, hheard.symm⟩
          sightings_prefix := by
            change s.handedOut ++ s.out ++ r.sighting.toList <+: _
            rw [hnext]
          sightings_eq := fun _ => hnext
          phones := h.phones }
  · exact h

lemma Inv.deliver (h : s.Inv) (scanner : Bool) : (s.deliver scanner).Inv := by
  unfold Scan.deliver
  cases hsending : s.sending with
  | none => exact h
  | some sighting =>
    dsimp only
    split_ifs with hwanted hroom
    · have hsightings : s.handedOut ++ (s.out ++ [sighting]) ++ [] = s.sightings := by
        rw [sightings, hsending]
        simp
      exact h.shift rfl rfl rfl rfl hsightings
    · exact h
    · exact h.finish scanner

lemma Inv.deadline (h : s.Inv) (scanner : Bool) : (s.deadline scanner).Inv := by
  unfold Scan.deadline
  split_ifs
  · exact h.finish scanner
  · exact h

lemma Inv.dropStream (h : s.Inv) : s.dropStream.Inv := { h with }

lemma recv_eq_some {sighting : PeerSighting} {s' : Scan} (h : s.recv = some (sighting, s')) :
    ∃ rest, s.out = sighting :: rest ∧
      s' = { s with out := rest, handedOut := s.handedOut ++ [sighting] } := by
  unfold recv at h
  split at h
  · rename_i first rest hout
    split_ifs at h
    cases h
    exact ⟨rest, hout, rfl⟩
  · cases h

lemma Inv.recv (h : s.Inv) {sighting : PeerSighting} {s' : Scan}
    (hrecv : s.recv = some (sighting, s')) :
    s'.Inv ∧ s'.heard = s.heard ∧
      ∃ r ∈ s.heard, r.phone = none ∧ r.sighting = some sighting := by
  obtain ⟨rest, hout, rfl⟩ := recv_eq_some hrecv
  have hsightings : s.handedOut ++ [sighting] ++ rest ++ s.sending.toList = s.sightings := by
    rw [sightings, hout]
    simp
  refine ⟨h.shift rfl rfl rfl rfl hsightings, rfl, ?_⟩
  have hmem : sighting ∈ s.sightings := by
    rw [← hsightings]
    simp
  obtain ⟨r, hread, hr⟩ := List.mem_filterMap.mp (h.sightings_prefix.subset hmem)
  have hheard := h.read_prefix.subset hread
  refine ⟨r, hheard, ?_, hr⟩
  by_contra hphone
  rw [h.phones r hheard hphone] at hr
  cases hr

lemma Inv.foreign_eq (h : s.Inv) : s.foreign = s.heard.filterMap ScanResult.sighting := by
  unfold foreign
  rw [List.filterMap_filter]
  apply List.filterMap_congr
  intro r hr
  by_cases hphone : r.phone = none
  · simp [hphone]
  · simp [hphone, h.phones r hr hphone]

lemma Inv.sightsForeign (h : s.Inv) : s.SightsForeign where
  in_order := by
    rw [h.foreign_eq]
    exact h.sightings_prefix.trans (h.read_prefix.filterMap _)
  complete hrunning hraw := by
    rw [h.foreign_eq, h.heard_eq hrunning, hraw, List.append_nil]
    exact h.sightings_eq hrunning

end Scan

end Scans

section Phones

variable {p p' : Phone} {streamId : ℕ}

namespace Phone

structure Inv (p : Phone) : Prop where
  scans : ∀ id s, p.scans id = some s → s.Inv
  fresh : ∀ id, p.radio.pending.nextId ≤ id → p.scans id = none
  onAir : ∀ set ∈ p.radio.onAir, ∃ token, set.2 = AndroidRadio.toWire token
  dials : p.DialsForeign

lemma HeardForeign.mono {peerHandle : Bytes} (h : p.HeardForeign peerHandle)
    (hscans : ∀ id s, p.scans id = some s → ∃ s', p'.scans id = some s' ∧ s.heard ⊆ s'.heard) :
    p'.HeardForeign peerHandle := by
  obtain ⟨id, s, r, hs, hr, hforeign⟩ := h
  obtain ⟨s', hs', hheard⟩ := hscans id s hs
  exact ⟨id, s', r, hs', hheard hr, hforeign⟩

lemma inv_start : Inv {} :=
  ⟨nofun, fun _ _ => rfl, nofun, nofun⟩

lemma Inv.onRadio (h : p.Inv) {radio : AndroidRadio} (hradio : Advertises p.radio radio) :
    Inv { p with radio } where
  scans := h.scans
  fresh id hid := h.fresh id (hradio.nextId.trans hid)
  onAir set hset := (hradio.onAir set hset).elim (h.onAir set) id
  dials id peerHandle hrequest := h.dials id peerHandle (hradio.request id peerHandle hrequest)

lemma scans_onScan_self (p : Phone) (id : ℕ) (f : Scan → Scan) :
    (p.onScan id f).scans id = (p.scans id).map f := Function.update_self _ _ _

lemma scans_onScan_of_ne (p : Phone) {id : ℕ} (hid : id ≠ streamId) (f : Scan → Scan) :
    (p.onScan streamId f).scans id = p.scans id := Function.update_of_ne hid _ _

lemma scans_startScan_self (p : Phone) (scanner : Bool) :
    (p.startScan scanner).scans p.radio.pending.nextId = some { scanning := scanner } :=
  Function.update_self _ _ _

lemma scans_startScan_of_ne (p : Phone) {id : ℕ} (hid : id ≠ p.radio.pending.nextId)
    (scanner : Bool) : (p.startScan scanner).scans id = p.scans id := Function.update_of_ne hid _ _

lemma Inv.onScan (h : p.Inv) {f : Scan → Scan}
    (hf : ∀ s, p.scans streamId = some s → s.Inv → (f s).Inv ∧ s.heard ⊆ (f s).heard) :
    (p.onScan streamId f).Inv where
  scans id s hs := by
    by_cases hid : id = streamId
    · subst hid
      rw [scans_onScan_self, Option.map_eq_some_iff] at hs
      obtain ⟨s₀, hs₀, rfl⟩ := hs
      exact (hf s₀ hs₀ (h.scans _ _ hs₀)).1
    · rw [scans_onScan_of_ne p hid] at hs
      exact h.scans id s hs
  fresh id hid := by
    by_cases hstream : id = streamId
    · subst hstream
      rw [scans_onScan_self, h.fresh id hid, Option.map_none]
    · rw [scans_onScan_of_ne p hstream]
      exact h.fresh id hid
  onAir := h.onAir
  dials id peerHandle hrequest := by
    refine (h.dials id peerHandle hrequest).mono fun id' s hs => ?_
    by_cases hid : id' = streamId
    · subst hid
      rw [scans_onScan_self, hs]
      exact ⟨f s, rfl, (hf s hs (h.scans _ _ hs)).2⟩
    · rw [scans_onScan_of_ne p hid]
      exact ⟨s, hs, List.Subset.refl _⟩

lemma Inv.startScan (h : p.Inv) (scanner : Bool) : (p.startScan scanner).Inv where
  scans id s hs := by
    by_cases hid : id = p.radio.pending.nextId
    · rw [hid, scans_startScan_self] at hs
      rw [← Option.some.inj hs]
      exact Scan.inv_start scanner
    · rw [scans_startScan_of_ne p hid] at hs
      exact h.scans id s hs
  fresh id hid := by
    have hlt : p.radio.pending.nextId < id := hid
    rw [scans_startScan_of_ne p hlt.ne']
    exact h.fresh id hlt.le
  onAir := h.onAir
  dials id peerHandle hrequest := by
    refine (h.dials id peerHandle hrequest).mono fun id' s hs => ⟨s, ?_, List.Subset.refl _⟩
    have hid : id' ≠ p.radio.pending.nextId := by
      rintro rfl
      rw [h.fresh _ le_rfl] at hs
      cases hs
    exact (scans_startScan_of_ne p hid scanner).trans hs

lemma request_connect_self (p : Phone) (peerHandle : Bytes) :
    (p.connect (.bytes peerHandle)).radio.pending.request p.radio.pending.nextId =
      some (.connect peerHandle) := Function.update_self _ _ _

lemma request_connect_of_ne (p : Phone) {id : ℕ} (hid : id ≠ p.radio.pending.nextId)
    (peerHandle : Bytes) : (p.connect (.bytes peerHandle)).radio.pending.request id =
      p.radio.pending.request id := Function.update_of_ne hid _ _

/-- A connection to a device that a scan heard and that is no phone. -/
lemma Inv.connect (h : p.Inv) {peerHandle : Bytes} (hheard : p.HeardForeign peerHandle) :
    (p.connect (.bytes peerHandle)).Inv where
  scans := h.scans
  fresh id hid := h.fresh id (Nat.le_of_succ_le hid)
  onAir := h.onAir
  dials id peerHandle' hrequest := by
    by_cases hid : id = p.radio.pending.nextId
    · rw [hid, request_connect_self] at hrequest
      cases hrequest
      exact hheard
    · rw [request_connect_of_ne p hid] at hrequest
      exact h.dials id peerHandle' hrequest

lemma Inv.syncNext (h : p.Inv) (streamId : ℕ) : (p.syncNext streamId).Inv := by
  unfold Phone.syncNext
  cases hnext : (p.scans streamId).bind Scan.recv with
  | none => exact h
  | some next =>
    obtain ⟨sighting, s'⟩ := next
    obtain ⟨s, hs, hrecv⟩ := Option.bind_eq_some_iff.mp hnext
    obtain ⟨hinv, hheard, r, hr, hphone, hsighting⟩ := (h.scans streamId s hs).recv hrecv
    obtain ⟨hlength, hhandle⟩ := sighting_eq_some hsighting
    have hscan : (p.onScan streamId fun _ => s').Inv := by
      refine h.onScan fun s₀ hs₀ _ => ⟨hinv, ?_⟩
      rw [Option.some.inj (hs₀.symm.trans hs), hheard]
      exact List.Subset.refl _
    dsimp only
    rw [hhandle]
    refine hscan.connect ⟨streamId, s', r, ?_, hheard ▸ hr, hphone, rfl, hlength⟩
    rw [scans_onScan_self, hs, Option.map_some]

end Phone

namespace PhoneMesh

variable {w : PhoneMesh}

lemma inv_phoneStep (h : ∀ i, (w i).Inv) (hp : p.Inv) (label : PhoneLabel) :
    (w.phoneStep p label).Inv := by
  cases label with
  | radio label =>
    dsimp only [phoneStep]
    split_ifs with hown
    · exact hp.onRadio (advertises_step hown)
    · exact hp
  | scan scanner => exact hp.startScan scanner
  | scanFails => exact hp.onRadio (advertises_step rfl)
  | hear streamId address payload =>
    exact hp.onScan fun s _ hs => ⟨hs.push fun hphone => absurd rfl hphone, s.heard_push _⟩
  | hearPhone streamId address phone requestId =>
    dsimp only [phoneStep]
    cases hset : (w phone).radio.onAir.find? (·.1 = requestId) with
    | none => exact hp
    | some set =>
      obtain ⟨token, htoken⟩ := (h phone).onAir set (List.mem_of_find?_eq_some hset)
      refine hp.onScan fun s _ hs => ⟨hs.push fun _ => ?_, s.heard_push _⟩
      rw [htoken]
      exact sighting_toWire address token _
  | forward streamId => exact hp.onScan fun s _ hs => ⟨hs.forward, s.heard_forward⟩
  | deliver streamId scanner =>
    exact hp.onScan fun s _ hs => ⟨hs.deliver scanner, s.heard_deliver scanner⟩
  | deadline streamId scanner =>
    exact hp.onScan fun s _ hs => ⟨hs.deadline scanner, s.heard_deadline scanner⟩
  | dropStream streamId => exact hp.onScan fun s _ hs => ⟨hs.dropStream, List.Subset.refl _⟩
  | abort streamId => exact hp.onScan fun s _ hs => ⟨hs.abort, List.Subset.refl _⟩
  | syncNext streamId => exact hp.syncNext streamId

lemma inv_step (w : PhoneMesh) (a : ℕ × PhoneLabel) (h : ∀ i, (w i).Inv) (i : ℕ) :
    (w.step a i).Inv := by
  unfold step
  by_cases hi : i = a.1
  · rw [hi, Function.update_self]
    exact inv_phoneStep h (h a.1) a.2
  · rw [Function.update_of_ne hi]
    exact h i

/-- In every run of any number of phones, the scans hand out in order what they hear from devices
that are no phones, and nothing that a phone advertises, so no sync loop ever connects to a phone
for its advertisement. -/
theorem phones_dial_no_phones (labels : List (ℕ × PhoneLabel)) :
    EveryState step
      (fun w => ∀ i, (∀ id s, (w i).scans id = some s → s.SightsForeign) ∧ (w i).DialsForeign)
      start labels :=
  (everyState_of_step inv_step (fun _ => Phone.inv_start) labels).mono fun _ h i =>
    ⟨fun id s hs => ((h i).scans id s hs).sightsForeign, (h i).dials⟩

/-- A phone hears another phone and a device that advertises a bare token. -/
def neighbours : List (ℕ × PhoneLabel) :=
  let token : AdvertToken := List.Vector.replicate advertTokenLen 7
  [(0, .radio (.begin (.advertise token))), (0, .radio (.callBridge 1 {})), (1, .scan true),
    (1, .hearPhone 1 [65] 0 1), (1, .hear 1 [66] token.toList), (1, .forward 1), (1, .forward 1),
    (1, .deliver 1 true), (1, .syncNext 1)]

example : let p := run step start neighbours 1
    (p.scans 1).map (fun s => s.heard.length) = some 2 ∧
      p.radio.pending.request 2 = some (.connect [66]) := by decide +kernel

end PhoneMesh

end Phones

end Parda.MobileBridge
