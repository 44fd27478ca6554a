import Parda.Lib.Machine
import Parda.Lib.Oneshots
import Parda.Lib.Codec
import Parda.Mesh.Radio

/-!
# The Android radio

Model of `mobile-bridge/src/radio.rs`, of the one-shot registry of `mobile-bridge/src/pending.rs`,
of the callbacks of `mobile-bridge/src/jni_exports.rs` and of `MeshBridge.kt`, except for `scan`. An
operation is a call that draws a request id, runs a method of the bridge and waits for its result.
The methods of the bridge and the callbacks of the platform run on threads of their own. What the
platform says, and when it calls back, is up to the labels. A `connect` has the opaque bytes of its
peer (without them it returns before it draws an id), and a JNI call that fails has done nothing on
the other side.
-/

namespace Parda.MobileBridge

open Mesh Machine Oneshots Oneshots.Registry

namespace AndroidRadio

inductive OneshotResult where
  | bytes (b : Bytes)
  | empty
  | error (message : String)
deriving DecidableEq

/-- The operations of `AndroidMeshRadio` and of `AndroidMeshLink`, with what they pass on. -/
inductive Operation where
  | advertise (token : AdvertToken)
  | connect (peerHandle : Bytes)
  | accept
  | send (linkHandle : ℕ) (bytes : Bytes)
  | recv (linkHandle : ℕ)
deriving DecidableEq

/-- What an operation returns. A link is its handle. -/
inductive Outcome where
  | unit
  | link (linkHandle : ℕ)
  | bytes (b : Bytes)
deriving DecidableEq

def oneshotToMeshResult : OneshotResult → Except RadioError Bytes
  | .bytes b => .ok b
  | .empty => .ok []
  | .error e => .error (.radioUnavailable e)

/-- `link_handle.to_be_bytes()`. -/
def toBeBytes (linkHandle : ℕ) : Bytes := Codec.beBytes 8 linkHandle

/-- `i64::from_be_bytes` of bytes that may have another length. -/
def linkFromBeBytes (malformed : RadioError) (handleBytes : Bytes) : Except RadioError Outcome :=
  if handleBytes.length = 8 then .ok (.link (Codec.ofBeBytes handleBytes)) else .error malformed

/-- What an operation makes of the result it has waited for. -/
def Operation.finish : Operation → OneshotResult → Except RadioError Outcome
  | .advertise _, result => (oneshotToMeshResult result).map fun _ => .unit
  | .connect _, result => (oneshotToMeshResult result).bind
      (linkFromBeBytes (.link "malformed link handle from connect callback"))
  | .accept, result => (oneshotToMeshResult result).bind
      (linkFromBeBytes (.radioUnavailable "malformed link handle from accept callback"))
  | .send _ _, result => (oneshotToMeshResult result).map fun _ => .unit
  | .recv _, result => (oneshotToMeshResult result).map .bytes

/-- What an operation makes of a JNI call that fails. -/
def Operation.callError (message : String) : Operation → RadioError
  | .advertise _ => .radioUnavailable ("JNI startAdvertise failed: " ++ message)
  | .connect _ => .link ("JNI connect failed: " ++ message)
  | .accept => .radioUnavailable ("JNI accept failed: " ++ message)
  | .send _ _ => .link ("JNI send failed: " ++ message)
  | .recv _ => .link ("JNI recv failed: " ++ message)

/-- What the platform says during one method of the bridge. -/
structure Platform where
  advertiser : Bool := true
  extendedAdvertising : Bool := true
  gattServer : Bool := true
  remoteDevice : Bool := true
  characteristic : Bool := true
  started : Bool := true
deriving DecidableEq

/-- What `onServicesDiscovered` finds. -/
inductive Discovery where
  | failed (status : ℕ)
  | missing
  | found
deriving DecidableEq

end AndroidRadio

open AndroidRadio

/-- Both sides of the bridge. The objects that the platform calls back are named by the request id
they were made with, a `BluetoothGatt` by its place. -/
structure AndroidRadio where
  pending : Registry Operation AndroidRadio.OneshotResult := {}
  /-- The calls that have not reached the bridge. -/
  begun : List ℕ := []
  gattServer : Bool := false
  advertiseCallbacks : List ℕ := []
  currentAdvertiseCallback : Option ℕ := none
  /-- The payloads of the advertising sets that were started and not stopped. -/
  onAir : List (ℕ × Bytes) := []
  pendingAcceptRequestIds : List ℕ := []
  nextLinkHandle : ℕ := 1
  /-- The request of each `connectGatt`, none once it is closed. -/
  gatts : List (Option ℕ) := []
  centralLinks : List (ℕ × ℕ) := []
  serverLinks : List (ℕ × ℕ) := []
  pendingRecv : ℕ → Option ℕ := fun _ => none
  pendingSend : ℕ → Option ℕ := fun _ => none
  /-- The operations whose JNI call failed, the link handles that were given out, and those of
  inbound connections that no request was waiting for. -/
  failures : List (ℕ × RadioError) := []
  opened : List ℕ := []
  unmatched : List ℕ := []

/-- A step of an operation, or a callback of the platform. A callback on a link comes with the
handle that the bridge finds for its device. -/
inductive RadioLabel where
  | drawId
  | begin (operation : Operation)
  | callBridge (requestId : ℕ) (platform : Platform)
  | callFails (requestId : ℕ) (message : String)
  | wake (requestId : ℕ)
  | drop (requestId : ℕ)
  | advertisingSetStarted (requestId : ℕ) (status : ℕ)
  | servicesDiscovered (gatt : ℕ) (discovery : Discovery)
  | centralDisconnected (gatt linkHandle : ℕ)
  | characteristicChanged (gatt linkHandle : ℕ) (value : Option Bytes)
  | characteristicWrite (gatt linkHandle : ℕ) (status : ℕ)
  | serverConnected (device : ℕ)
  | serverDisconnected (device linkHandle : ℕ)
  | characteristicWriteRequest (device linkHandle : ℕ) (value : Bytes)

namespace AndroidRadio

/-- `AdvertToken::to_wire`: the protocol tag, then the token. -/
def toWire (token : AdvertToken) : Bytes := [0x50, 0x34] ++ token.toList

section Exports

/-- `resolve_oneshot`. -/
def resolveOneshot (s : AndroidRadio) (requestId : ℕ) (result : OneshotResult) : AndroidRadio :=
  { s with pending := s.pending.resolve requestId result }

def nativeOnAdvertiseResult (s : AndroidRadio) (requestId : ℕ) (success : Bool)
    (error : Option String) : AndroidRadio :=
  s.resolveOneshot requestId
    (if success then .empty else .error (error.getD "advertise failed (no message)"))

def nativeOnConnectResult (s : AndroidRadio) (requestId linkHandle : ℕ) (error : Option String) :
    AndroidRadio :=
  s.resolveOneshot requestId
    (match error with
      | some message => .error message
      | none => .bytes (toBeBytes linkHandle))

def nativeOnAcceptResult (s : AndroidRadio) (requestId linkHandle : ℕ) (error : Option String) :
    AndroidRadio :=
  s.nativeOnConnectResult requestId linkHandle error

def nativeOnSendResult (s : AndroidRadio) (requestId : ℕ) (error : Option String) : AndroidRadio :=
  s.resolveOneshot requestId
    (match error with
      | some message => .error message
      | none => .empty)

/-- The bytes are there unless the error is. -/
def nativeOnRecvResult (s : AndroidRadio) (requestId : ℕ) (result : Except String Bytes) :
    AndroidRadio :=
  s.resolveOneshot requestId
    (match result with
      | .error message => .error message
      | .ok bytes => .bytes bytes)

end Exports

section Bridge

variable (s : AndroidRadio) (p : Platform) (requestId : ℕ)

def ensureGattServer : AndroidRadio :=
  if s.gattServer then s else { s with gattServer := p.gattServer }

def noExtendedAdvertising : String :=
  "this device's Bluetooth controller does not support LE extended advertising, " ++
    "which PARDA mesh mode requires to fit its rotating token"

def startAdvertise (token : Bytes) : AndroidRadio :=
  if p.advertiser then
    let s := s.ensureGattServer p
    if p.extendedAdvertising then
      { s with
        advertiseCallbacks := requestId :: s.advertiseCallbacks
        currentAdvertiseCallback := some requestId
        onAir := (requestId, token) ::
          s.onAir.filter fun set => some set.1 ≠ s.currentAdvertiseCallback }
    else s.nativeOnAdvertiseResult requestId false (some noExtendedAdvertising)
  else s.nativeOnAdvertiseResult requestId false (some "no BLE advertiser available on this device")

def connect : AndroidRadio :=
  if p.remoteDevice then { s with gatts := s.gatts ++ [some requestId] }
  else s.nativeOnConnectResult requestId 0 (some "invalid or unreachable peer address")

def accept : AndroidRadio :=
  let s := s.ensureGattServer p
  { s with pendingAcceptRequestIds := s.pendingAcceptRequestIds ++ [requestId] }

def send (linkHandle : ℕ) : AndroidRadio :=
  if s.centralLinks.any (·.1 = linkHandle) then
    if p.characteristic then
      if p.started then
        { s with pendingSend := Function.update s.pendingSend linkHandle (some requestId) }
      else
        { s with pendingSend := Function.update s.pendingSend linkHandle none }.nativeOnSendResult
          requestId (some "writeCharacteristic failed to start")
    else s.nativeOnSendResult requestId (some "characteristic unavailable")
  else if s.serverLinks.any (·.1 = linkHandle) then
    if p.characteristic then
      s.nativeOnSendResult requestId
        (if p.started then none else some "notifyCharacteristicChanged failed to start")
    else s.nativeOnSendResult requestId (some "characteristic unavailable")
  else s.nativeOnSendResult requestId (some "unknown link handle")

def recv (linkHandle : ℕ) : AndroidRadio :=
  { s with pendingRecv := Function.update s.pendingRecv linkHandle (some requestId) }

def deliverRecv (linkHandle : ℕ) (bytes : Option Bytes) : AndroidRadio :=
  match s.pendingRecv linkHandle with
  | none => s
  | some requestId =>
    { s with pendingRecv := Function.update s.pendingRecv linkHandle none }.nativeOnRecvResult
      requestId
      (match bytes with
        | none => .error "no data"
        | some bytes => .ok bytes)

/-- The method of the bridge that an operation calls. -/
def call : Operation → AndroidRadio
  | .advertise token => s.startAdvertise p requestId (toWire token)
  | .connect _ => s.connect p requestId
  | .accept => s.accept p requestId
  | .send linkHandle _ => s.send p requestId linkHandle
  | .recv linkHandle => s.recv requestId linkHandle

end Bridge

section Callbacks

variable (s : AndroidRadio)

def onAdvertisingSetStarted (requestId status : ℕ) : AndroidRadio :=
  if requestId ∈ s.advertiseCallbacks then
    if status = 0 then s.nativeOnAdvertiseResult requestId true none
    else
      { s with onAir := s.onAir.filter fun set => set.1 ≠ requestId }.nativeOnAdvertiseResult
        requestId false (some ("extended advertise failed, status=" ++ toString status))
  else s

def onServicesDiscovered (gatt : ℕ) (discovery : Discovery) : AndroidRadio :=
  match s.gatts[gatt]? with
  | some (some requestId) =>
    match discovery with
    | .failed status =>
      { s with gatts := s.gatts.set gatt none }.nativeOnConnectResult requestId 0
        (some ("service discovery failed, status=" ++ toString status))
    | .missing =>
      { s with gatts := s.gatts.set gatt none }.nativeOnConnectResult requestId 0
        (some "PARDA characteristic not found on peer")
    | .found =>
      { s with
        nextLinkHandle := s.nextLinkHandle + 1
        centralLinks := (s.nextLinkHandle, gatt) :: s.centralLinks
        opened := s.opened ++ [s.nextLinkHandle] }.nativeOnConnectResult requestId s.nextLinkHandle
          none
  | _ => s

def onServerConnected (device : ℕ) : AndroidRadio :=
  if s.gattServer then
    let linkHandle := s.nextLinkHandle
    let s' := { s with
      nextLinkHandle := s.nextLinkHandle + 1
      serverLinks := (linkHandle, device) :: s.serverLinks
      opened := s.opened ++ [linkHandle] }
    match s.pendingAcceptRequestIds with
    | requestId :: rest =>
      { s' with pendingAcceptRequestIds := rest }.nativeOnAcceptResult requestId linkHandle none
    | [] => { s' with unmatched := s.unmatched ++ [linkHandle] }
  else s

def onCharacteristicWrite (linkHandle status : ℕ) : AndroidRadio :=
  match s.pendingSend linkHandle with
  | none => s
  | some requestId =>
    { s with pendingSend := Function.update s.pendingSend linkHandle none }.nativeOnSendResult
      requestId (if status = 0 then none else some ("write failed, status=" ++ toString status))

end Callbacks

def step (s : AndroidRadio) : RadioLabel → AndroidRadio
  | .drawId => { s with pending := s.pending.drawId }
  | .begin operation =>
    { s with
      pending := s.pending.register operation
      begun := s.pending.nextId :: s.begun }
  | .callBridge requestId platform =>
    if requestId ∈ s.begun then
      let s := { s with begun := s.begun.filter (· ≠ requestId) }
      match s.pending.request requestId with
      | some operation => s.call platform requestId operation
      | none => s
    else s
  | .callFails requestId message =>
    if requestId ∈ s.begun then
      match s.pending.request requestId with
      | some operation =>
        { s with
          begun := s.begun.filter (· ≠ requestId)
          pending := s.pending.abandon requestId
          failures := s.failures ++ [(requestId, operation.callError message)] }
      | none => s
    else s
  | .wake requestId =>
    if requestId ∈ s.begun then s else { s with pending := s.pending.take requestId }
  | .drop requestId =>
    if requestId ∈ s.begun then s else { s with pending := s.pending.abandon requestId }
  | .advertisingSetStarted requestId status => s.onAdvertisingSetStarted requestId status
  | .servicesDiscovered gatt discovery => s.onServicesDiscovered gatt discovery
  | .centralDisconnected gatt linkHandle =>
    { s with centralLinks := s.centralLinks.filter (· ≠ (linkHandle, gatt)) }
  | .characteristicChanged gatt linkHandle value =>
    if (linkHandle, gatt) ∈ s.centralLinks then s.deliverRecv linkHandle value else s
  | .characteristicWrite gatt linkHandle status =>
    if (linkHandle, gatt) ∈ s.centralLinks then s.onCharacteristicWrite linkHandle status else s
  | .serverConnected device => s.onServerConnected device
  | .serverDisconnected device linkHandle =>
    { s with serverLinks := s.serverLinks.filter (· ≠ (linkHandle, device)) }
  | .characteristicWriteRequest device linkHandle value =>
    if (linkHandle, device) ∈ s.serverLinks then s.deliverRecv linkHandle (some value) else s

/-- What operations returned, by request id. -/
def returned (s : AndroidRadio) : List (ℕ × Except RadioError Outcome) :=
  s.pending.taken.map (fun e => (e.1, e.2.1.finish e.2.2)) ++
    s.failures.map fun e => (e.1, .error e.2)

/-- The results that an operation can be given. -/
def Suits : Operation → OneshotResult → Prop
  | .advertise _, result | .send _ _, result =>
    result = .empty ∨ ∃ message, result = .error message
  | .connect _, result | .accept, result =>
    (∃ linkHandle, result = .bytes (toBeBytes linkHandle)) ∨ ∃ message, result = .error message
  | .recv _, result => result ≠ .empty

/-- The link handle that a result brings. -/
def links : Operation → OneshotResult → List ℕ
  | .connect _, .bytes b | .accept, .bytes b => [Codec.ofBeBytes b]
  | _, _ => []

def linkOf : Except RadioError Outcome → Option ℕ
  | .ok (.link linkHandle) => some linkHandle
  | _ => none

/-- The links that operations have returned. -/
def returnedLinks (s : AndroidRadio) : List ℕ := s.returned.filterMap fun e => linkOf e.2

/-- The links that no operation will return. -/
def lost (s : AndroidRadio) : List ℕ := s.pending.worth links s.pending.unclaimed ++ s.unmatched

/-- A link that is given out finds an operation that still waits for one, and one that an operation
would return is not dropped with it. -/
def Met (s : AndroidRadio) : RadioLabel → Prop
  | .serverConnected _ =>
    s.gattServer = true → ∃ id ∈ s.pendingAcceptRequestIds.head?, s.pending.Awaits id
  | .servicesDiscovered gatt .found =>
    ∀ id, s.gatts[gatt]? = some (some id) → s.pending.Awaits id
  | .drop id => id ∉ s.begun → ((s.pending.find? id).map (Waiting.worth links)).getD [] = []
  | _ => True

/-- An operation returns once, with what it makes of the first result for its own id, and every link
is returned once, on its way, or lost. -/
structure Safe (s : AndroidRadio) : Prop where
  once : (s.returned.map Prod.fst).Nodup
  answered : ∀ e ∈ s.returned, ∃ operation, s.pending.request e.1 = some operation ∧
    ((∃ message, e.2 = .error (operation.callError message)) ∨
      ∃ result, first s.pending.answers e.1 = some result ∧ Suits operation result ∧
        e.2 = operation.finish result)
  distinct : s.opened.Nodup
  accounted : (s.opened : Multiset ℕ) = s.returnedLinks + s.pending.heldWorth links + s.lost

section Results

/-- An operation whose result suits it returns the link that the result brings. -/
lemma linkOf_finish {operation : Operation} {result : OneshotResult}
    (h : Suits operation result) :
    (linkOf (operation.finish result)).toList = links operation result := by
  cases operation with
  | advertise token =>
    rcases h with rfl | ⟨message, rfl⟩
    · rfl
    · rfl
  | connect peerHandle =>
    rcases h with ⟨linkHandle, rfl⟩ | ⟨message, rfl⟩
    · simp [Operation.finish, oneshotToMeshResult, Except.bind, linkFromBeBytes, toBeBytes, linkOf,
        links]
    · rfl
  | accept =>
    rcases h with ⟨linkHandle, rfl⟩ | ⟨message, rfl⟩
    · simp [Operation.finish, oneshotToMeshResult, Except.bind, linkFromBeBytes, toBeBytes, linkOf,
        links]
    · rfl
  | send linkHandle bytes =>
    rcases h with rfl | ⟨message, rfl⟩
    · rfl
    · rfl
  | recv linkHandle =>
    cases result with
    | bytes b => rfl
    | empty => exact absurd rfl h
    | error message => rfl

lemma ofBeBytes_toBeBytes {linkHandle : ℕ} (h : linkHandle < 2 ^ 64) :
    Codec.ofBeBytes (toBeBytes linkHandle) = linkHandle := by
  unfold toBeBytes
  rw [Codec.ofBeBytes_beBytes]
  exact Nat.mod_eq_of_lt (by omega)

end Results

/-- Calls that have not reached the bridge are not answered, and a call that failed is gone. -/
structure Calls (pending : Registry Operation OneshotResult) (begun : List ℕ)
    (failures : List (ℕ × RadioError)) : Prop where
  registry : pending.Inv Suits
  begun_awaits : ∀ id ∈ begun, pending.Awaits id
  failed : ∀ f ∈ failures, ∃ operation, pending.request f.1 = some operation ∧
    ∃ message, f.2 = operation.callError message
  failed_once : (failures.map Prod.fst).Nodup
  failed_gone : ∀ f ∈ failures, ∀ w ∈ pending.waiting, w.id ≠ f.1
  failed_only : ∀ f ∈ failures, ∀ e ∈ pending.taken, e.1 ≠ f.1

/-- The id belongs to an operation that has reached the bridge. -/
def Called (pending : Registry Operation OneshotResult) (begun : List ℕ) (id : ℕ)
    (operation : Operation) : Prop :=
  pending.request id = some operation ∧ id ∉ begun

/-- The objects of the bridge hold the ids of operations of their kind. -/
structure HoldsIds (C : ℕ → Operation → Prop) (advertiseCallbacks : List ℕ)
    (gatts : List (Option ℕ)) (accepts : List ℕ) (recvs sends : ℕ → Option ℕ) : Prop where
  advertise : ∀ id ∈ advertiseCallbacks, ∃ token, C id (.advertise token)
  connect : ∀ id, some id ∈ gatts → ∃ peerHandle, C id (.connect peerHandle)
  accept : ∀ id ∈ accepts, C id .accept
  recv : ∀ linkHandle id, recvs linkHandle = some id → C id (.recv linkHandle)
  send : ∀ linkHandle id, sends linkHandle = some id → ∃ bytes, C id (.send linkHandle bytes)

/-- The handles given out are new, and each was the result of an operation or nobody's. -/
structure Handles (opened unmatched answered : List ℕ) (nextLinkHandle : ℕ) : Prop where
  opened_lt : ∀ linkHandle ∈ opened, linkHandle < nextLinkHandle
  opened_nodup : opened.Nodup
  opened_eq : (opened : Multiset ℕ) = answered + unmatched

structure Inv (s : AndroidRadio) : Prop where
  calls : Calls s.pending s.begun s.failures
  handles : Handles s.opened s.unmatched (s.pending.worth links s.pending.answers) s.nextLinkHandle
  ids : HoldsIds (Called s.pending s.begun) s.advertiseCallbacks s.gatts s.pendingAcceptRequestIds
    s.pendingRecv s.pendingSend

section Calls

variable {pending : Registry Operation OneshotResult} {begun : List ℕ}
  {failures : List (ℕ × RadioError)} {id : ℕ} {operation : Operation} {result : OneshotResult}

lemma Calls.register (h : Calls pending begun failures) :
    Calls (pending.register operation) (pending.nextId :: begun) failures where
  registry := h.registry.register
  begun_awaits id hid := by
    rcases List.mem_cons.mp hid with rfl | hid
    · exact awaits_register_self
    · exact (h.begun_awaits id hid).register
  failed f hf := by
    obtain ⟨operation', hrequest, hmessage⟩ := h.failed f hf
    refine ⟨operation', ?_, hmessage⟩
    rw [h.registry.request_register (by rw [hrequest]; exact Option.some_ne_none _)]
    exact hrequest
  failed_once := h.failed_once
  failed_gone f hf w hw := by
    rcases List.mem_cons.mp hw with rfl | hw
    · intro heq
      obtain ⟨operation', hrequest, -⟩ := h.failed f hf
      rw [← heq, h.registry.drawn _ le_rfl] at hrequest
      cases hrequest
    · exact h.failed_gone f hf w hw
  failed_only := h.failed_only

/-- A result for an operation that has reached the bridge. -/
lemma Calls.resolve (h : Calls pending begun failures) (hcalled : Called pending begun id operation)
    (hsuits : Suits operation result) : Calls (pending.resolve id result) begun failures where
  registry := h.registry.resolve hcalled.1 hsuits
  begun_awaits id' hid := (h.begun_awaits id' hid).resolve_of_ne fun heq => hcalled.2 (heq ▸ hid)
  failed f hf := by
    rw [request_resolve]
    exact h.failed f hf
  failed_once := h.failed_once
  failed_gone f hf := forall_id_resolve (P := fun id' => id' ≠ f.1) (h.failed_gone f hf)
  failed_only f hf := by
    rw [taken_resolve]
    exact h.failed_only f hf

/-- An operation reaches the bridge. -/
lemma Calls.reach (h : Calls pending begun failures) :
    Calls pending (begun.filter (· ≠ id)) failures :=
  { h with begun_awaits := fun id' hid => h.begun_awaits id' (List.mem_filter.mp hid).1 }

lemma Calls.take (h : Calls pending begun failures) (hid : id ∉ begun) :
    Calls (pending.take id) begun failures where
  registry := h.registry.take
  begun_awaits id' hid' := (h.begun_awaits id' hid').take_of_ne fun heq => hid (heq ▸ hid')
  failed f hf := by
    rw [request_take]
    exact h.failed f hf
  failed_once := h.failed_once
  failed_gone f hf w hw := h.failed_gone f hf w (mem_waiting_take hw)
  failed_only f hf e he := by
    rcases mem_taken_take he with he | ⟨w, hw, heq⟩
    · exact h.failed_only f hf e he
    · rw [← heq]
      exact h.failed_gone f hf w hw

lemma Calls.abandon (h : Calls pending begun failures) (hid : id ∉ begun) :
    Calls (pending.abandon id) begun failures where
  registry := h.registry.abandon
  begun_awaits id' hid' := (h.begun_awaits id' hid').abandon_of_ne fun heq => hid (heq ▸ hid')
  failed f hf := by
    rw [request_abandon]
    exact h.failed f hf
  failed_once := h.failed_once
  failed_gone f hf w hw := h.failed_gone f hf w (mem_waiting_abandon hw).1
  failed_only f hf := by
    rw [taken_abandon]
    exact h.failed_only f hf

/-- An operation that does not reach the bridge. -/
lemma Calls.fail (h : Calls pending begun failures) (hid : id ∈ begun)
    (hrequest : pending.request id = some operation) (message : String) :
    Calls (pending.abandon id) (begun.filter (· ≠ id))
      (failures ++ [(id, operation.callError message)]) := by
  have hwaits : ∃ w ∈ pending.waiting, w.id = id := by
    obtain ⟨w, hfind⟩ := Option.isSome_iff_exists.mp (h.begun_awaits id hid).2
    exact ⟨w, mem_of_find? hfind⟩
  obtain ⟨w₀, hw₀, hid₀⟩ := hwaits
  have hleft : Calls (pending.abandon id) (begun.filter (· ≠ id)) failures :=
    h.reach.abandon (by simp)
  refine { hleft with failed := ?_, failed_once := ?_, failed_gone := ?_, failed_only := ?_ }
  · intro f hf
    rcases List.mem_append.mp hf with hf | hf
    · exact hleft.failed f hf
    · obtain rfl := List.mem_singleton.mp hf
      exact ⟨operation, by rw [request_abandon]; exact hrequest, message, rfl⟩
  · rw [List.map_append, List.map_singleton]
    refine List.Nodup.append h.failed_once (List.nodup_singleton _) ?_
    intro id' hid' hmem
    obtain ⟨f, hf, rfl⟩ := List.mem_map.mp hid'
    exact h.failed_gone f hf w₀ hw₀ (hid₀.trans (List.mem_singleton.mp hmem).symm)
  · intro f hf w hw
    rcases List.mem_append.mp hf with hf | hf
    · exact hleft.failed_gone f hf w hw
    · obtain rfl := List.mem_singleton.mp hf
      exact (mem_waiting_abandon hw).2
  · intro f hf e he
    rcases List.mem_append.mp hf with hf | hf
    · exact hleft.failed_only f hf e he
    · obtain rfl := List.mem_singleton.mp hf
      rw [taken_abandon] at he
      rw [← hid₀]
      exact fun heq => h.registry.gone e he w₀ hw₀ heq.symm

end Calls

section Ids

variable {C C' : ℕ → Operation → Prop} {advertiseCallbacks accepts : List ℕ}
  {gatts : List (Option ℕ)} {recvs sends : ℕ → Option ℕ} {id : ℕ}

lemma HoldsIds.mono (h : HoldsIds C advertiseCallbacks gatts accepts recvs sends)
    (hC : ∀ id operation, C id operation → C' id operation) :
    HoldsIds C' advertiseCallbacks gatts accepts recvs sends where
  advertise id hid := (h.advertise id hid).imp fun _ hc => hC _ _ hc
  connect id hid := (h.connect id hid).imp fun _ hc => hC _ _ hc
  accept id hid := hC _ _ (h.accept id hid)
  recv linkHandle id hid := hC _ _ (h.recv linkHandle id hid)
  send linkHandle id hid := (h.send linkHandle id hid).imp fun _ hc => hC _ _ hc

/-- A map of ids by link with one more entry. -/
lemma forall_update_some {ids : ℕ → Option ℕ} {P : ℕ → ℕ → Prop}
    (h : ∀ linkHandle id, ids linkHandle = some id → P linkHandle id) {linkHandle₀ : ℕ}
    (hid : P linkHandle₀ id) : ∀ linkHandle id',
      Function.update ids linkHandle₀ (some id) linkHandle = some id' → P linkHandle id' := by
  intro linkHandle id' heq
  by_cases hne : linkHandle = linkHandle₀
  · subst hne
    rw [Function.update_self] at heq
    exact Option.some.inj heq ▸ hid
  · rw [Function.update_of_ne hne] at heq
    exact h linkHandle id' heq

lemma forall_update_none {ids : ℕ → Option ℕ} {P : ℕ → ℕ → Prop}
    (h : ∀ linkHandle id, ids linkHandle = some id → P linkHandle id) (linkHandle₀ : ℕ) :
    ∀ linkHandle id', Function.update ids linkHandle₀ none linkHandle = some id' →
      P linkHandle id' := by
  intro linkHandle id' heq
  by_cases hne : linkHandle = linkHandle₀
  · subst hne
    rw [Function.update_self] at heq
    cases heq
  · rw [Function.update_of_ne hne] at heq
    exact h linkHandle id' heq

lemma HoldsIds.connects (h : HoldsIds C advertiseCallbacks gatts accepts recvs sends)
    {peerHandle : Bytes} (hid : C id (.connect peerHandle)) :
    HoldsIds C advertiseCallbacks (gatts ++ [some id]) accepts recvs sends :=
  { h with
    connect := fun id' hid' => by
      rcases List.mem_append.mp hid' with hid' | hid'
      · exact h.connect id' hid'
      · obtain rfl := Option.some.inj (List.mem_singleton.mp hid')
        exact ⟨peerHandle, hid⟩ }

lemma HoldsIds.closes (h : HoldsIds C advertiseCallbacks gatts accepts recvs sends) (gatt : ℕ) :
    HoldsIds C advertiseCallbacks (gatts.set gatt none) accepts recvs sends :=
  { h with
    connect := fun id' hid' => by
      rcases List.mem_or_eq_of_mem_set hid' with hid' | hid'
      · exact h.connect id' hid'
      · cases hid' }

lemma HoldsIds.queues (h : HoldsIds C advertiseCallbacks gatts accepts recvs sends)
    (hid : C id .accept) : HoldsIds C advertiseCallbacks gatts (accepts ++ [id]) recvs sends :=
  { h with
    accept := fun id' hid' => by
      rcases List.mem_append.mp hid' with hid' | hid'
      · exact h.accept id' hid'
      · obtain rfl := List.mem_singleton.mp hid'
        exact hid }

end Ids

section Steps

variable {s : AndroidRadio} {p : Platform} {id : ℕ} {operation : Operation}
  {result : OneshotResult}

lemma called_resolve {pending : Registry Operation OneshotResult} {begun : List ℕ} {id' : ℕ}
    {operation' : Operation} (h : Called pending begun id' operation') :
    Called (pending.resolve id result) begun id' operation' := by
  refine ⟨?_, h.2⟩
  rw [request_resolve]
  exact h.1

lemma Handles.open {opened unmatched answered : List ℕ} {nextLinkHandle : ℕ}
    (h : Handles opened unmatched answered nextLinkHandle) :
    Handles (opened ++ [nextLinkHandle]) unmatched (answered ++ [nextLinkHandle])
      (nextLinkHandle + 1) where
  opened_lt linkHandle hmem := by
    rcases List.mem_append.mp hmem with hmem | hmem
    · exact Nat.lt_succ_of_lt (h.opened_lt linkHandle hmem)
    · rw [List.mem_singleton.mp hmem]
      exact Nat.lt_succ_self nextLinkHandle
  opened_nodup := by
    refine List.Nodup.append h.opened_nodup (List.nodup_singleton _) ?_
    intro linkHandle hmem hnew
    exact (h.opened_lt linkHandle hmem).ne (List.mem_singleton.mp hnew)
  opened_eq := by
    rw [← Multiset.coe_add, ← Multiset.coe_add, h.opened_eq]
    exact add_right_comm _ _ _

lemma Handles.unmatch {opened unmatched answered : List ℕ} {nextLinkHandle : ℕ}
    (h : Handles opened unmatched answered nextLinkHandle) :
    Handles (opened ++ [nextLinkHandle]) (unmatched ++ [nextLinkHandle]) answered
      (nextLinkHandle + 1) where
  opened_lt := h.open.opened_lt
  opened_nodup := h.open.opened_nodup
  opened_eq := by
    rw [← Multiset.coe_add, ← Multiset.coe_add, h.opened_eq]
    exact add_assoc _ _ _

/-- The operations that return links. -/
def Operation.opens : Operation → Bool
  | .connect _ | .accept => true
  | _ => false

lemma suits_link (hopens : operation.opens = true) (linkHandle : ℕ) :
    Suits operation (.bytes (toBeBytes linkHandle)) := by
  cases operation with
  | connect peerHandle => exact Or.inl ⟨linkHandle, rfl⟩
  | accept => exact Or.inl ⟨linkHandle, rfl⟩
  | _ => cases hopens

lemma links_link (hopens : operation.opens = true) {linkHandle : ℕ} (h : linkHandle < 2 ^ 64) :
    links operation (.bytes (toBeBytes linkHandle)) = [linkHandle] := by
  cases operation with
  | connect peerHandle => exact congrArg (fun h => [h]) (ofBeBytes_toBeBytes h)
  | accept => exact congrArg (fun h => [h]) (ofBeBytes_toBeBytes h)
  | _ => cases hopens

lemma links_ne_nil (hopens : operation.opens = true) (b : Bytes) :
    links operation (.bytes b) ≠ [] := by
  cases operation with
  | connect peerHandle => exact List.cons_ne_nil _ _
  | accept => exact List.cons_ne_nil _ _
  | _ => cases hopens

lemma suits_error (operation : Operation) (message : String) :
    Suits operation (.error message) ∧ links operation (.error message) = [] := by
  cases operation with
  | recv linkHandle => exact ⟨nofun, rfl⟩
  | _ => exact ⟨Or.inr ⟨message, rfl⟩, rfl⟩

/-- A step that gives out no link and loses none. -/
structure Quiet (s s' : AndroidRadio) : Prop where
  inv : s'.Inv
  lost_eq : s'.lost = s.lost
  nextLinkHandle_eq : s'.nextLinkHandle = s.nextLinkHandle

lemma Quiet.trans {s'' s' : AndroidRadio} (h : Quiet s s') (h' : Quiet s' s'') : Quiet s s'' where
  inv := h'.inv
  lost_eq := h'.lost_eq.trans h.lost_eq
  nextLinkHandle_eq := h'.nextLinkHandle_eq.trans h.nextLinkHandle_eq

lemma Inv.quiet (h : s.Inv) : Quiet s s := ⟨h, rfl, rfl⟩

/-- A result without a link for an operation that has reached the bridge. -/
lemma Inv.answer (h : s.Inv) (hcalled : Called s.pending s.begun id operation)
    (hsuits : Suits operation result) (hlinks : links operation result = []) :
    Quiet s (s.resolveOneshot id result) where
  inv :=
    { calls := h.calls.resolve hcalled hsuits
      handles := by
        unfold resolveOneshot
        rw [worth_answers_resolve hcalled.1, hlinks, List.append_nil]
        exact h.handles
      ids := h.ids.mono fun _ _ => called_resolve }
  lost_eq := by
    unfold lost resolveOneshot
    rw [worth_unclaimed_resolve hcalled.1, hlinks, ite_self, List.append_nil]
  nextLinkHandle_eq := rfl

lemma Inv.error (h : s.Inv) (hcalled : Called s.pending s.begun id operation) (message : String) :
    Quiet s (s.resolveOneshot id (.error message)) :=
  h.answer hcalled (suits_error operation message).1 (suits_error operation message).2

lemma Inv.ensureGattServer (h : s.Inv) : Quiet s (s.ensureGattServer p) := by
  unfold AndroidRadio.ensureGattServer
  split
  · exact h.quiet
  · exact ⟨{ h with }, rfl, rfl⟩

lemma called_ensureGattServer (h : Called s.pending s.begun id operation) :
    Called (s.ensureGattServer p).pending (s.ensureGattServer p).begun id operation := by
  unfold AndroidRadio.ensureGattServer
  split
  · exact h
  · exact h

lemma Inv.startAdvertise (h : s.Inv) {token : AdvertToken} {payload : Bytes}
    (hcalled : Called s.pending s.begun id (.advertise token)) :
    Quiet s (s.startAdvertise p id payload) := by
  unfold AndroidRadio.startAdvertise
  split
  · have hserver : Quiet s (s.ensureGattServer p) := h.ensureGattServer
    have hcalled' := called_ensureGattServer (p := p) hcalled
    dsimp only
    split
    · refine hserver.trans ⟨{ hserver.inv with ids := ?_ }, rfl, rfl⟩
      exact { hserver.inv.ids with
        advertise := fun id' hid => by
          rcases List.mem_cons.mp hid with rfl | hid
          · exact ⟨token, hcalled'⟩
          · exact hserver.inv.ids.advertise id' hid }
    · exact hserver.trans (hserver.inv.error hcalled' _)
  · exact h.error hcalled _

lemma Inv.connect (h : s.Inv) {peerHandle : Bytes}
    (hcalled : Called s.pending s.begun id (.connect peerHandle)) : Quiet s (s.connect p id) := by
  unfold AndroidRadio.connect
  split
  · exact ⟨{ h with ids := h.ids.connects hcalled }, rfl, rfl⟩
  · exact h.error hcalled _

lemma Inv.accept (h : s.Inv) (hcalled : Called s.pending s.begun id .accept) :
    Quiet s (s.accept p id) := by
  unfold AndroidRadio.accept
  have hserver : Quiet s (s.ensureGattServer p) := h.ensureGattServer
  have hcalled' := called_ensureGattServer (p := p) hcalled
  exact hserver.trans ⟨{ hserver.inv with ids := hserver.inv.ids.queues hcalled' }, rfl, rfl⟩

/-- What `nativeOnSendResult` answers suits a `send`. -/
lemma Inv.sendResult (h : s.Inv) {linkHandle : ℕ} {bytes : Bytes}
    (hcalled : Called s.pending s.begun id (.send linkHandle bytes)) (error : Option String) :
    Quiet s (s.nativeOnSendResult id error) := by
  cases error with
  | none => exact h.answer hcalled (Or.inl rfl) rfl
  | some message => exact h.error hcalled message

lemma Inv.setPendingSend (h : s.Inv) (linkHandle : ℕ) (value : Option ℕ)
    (hvalue : ∀ id, value = some id →
      ∃ bytes, Called s.pending s.begun id (.send linkHandle bytes)) :
    Quiet s { s with pendingSend := Function.update s.pendingSend linkHandle value } := by
  refine ⟨{ h with ids := { h.ids with send := ?_ } }, rfl, rfl⟩
  cases value with
  | none => exact forall_update_none h.ids.send linkHandle
  | some id => exact forall_update_some h.ids.send (hvalue id rfl)

lemma Inv.setPendingRecv (h : s.Inv) (linkHandle : ℕ) (value : Option ℕ)
    (hvalue : ∀ id, value = some id → Called s.pending s.begun id (.recv linkHandle)) :
    Quiet s { s with pendingRecv := Function.update s.pendingRecv linkHandle value } := by
  refine ⟨{ h with ids := { h.ids with recv := ?_ } }, rfl, rfl⟩
  cases value with
  | none => exact forall_update_none h.ids.recv linkHandle
  | some id => exact forall_update_some h.ids.recv (hvalue id rfl)

lemma Inv.send (h : s.Inv) {linkHandle : ℕ} {bytes : Bytes}
    (hcalled : Called s.pending s.begun id (.send linkHandle bytes)) :
    Quiet s (s.send p id linkHandle) := by
  unfold AndroidRadio.send
  split
  · split
    · split
      · exact h.setPendingSend linkHandle (some id) fun id' heq => ⟨bytes, Option.some.inj heq ▸ hcalled⟩
      · have hreset := h.setPendingSend linkHandle none nofun
        exact hreset.trans (hreset.inv.sendResult hcalled _)
    · exact h.sendResult hcalled _
  · split
    · split
      · exact h.sendResult hcalled _
      · exact h.sendResult hcalled _
    · exact h.sendResult hcalled _

lemma Inv.recv (h : s.Inv) {linkHandle : ℕ}
    (hcalled : Called s.pending s.begun id (.recv linkHandle)) : Quiet s (s.recv id linkHandle) :=
  h.setPendingRecv linkHandle (some id) fun _ heq => Option.some.inj heq ▸ hcalled

lemma Inv.call (h : s.Inv) (hcalled : Called s.pending s.begun id operation) :
    Quiet s (s.call p id operation) := by
  cases operation with
  | advertise token => exact h.startAdvertise hcalled
  | connect peerHandle => exact h.connect hcalled
  | accept => exact h.accept hcalled
  | send linkHandle bytes => exact h.send hcalled
  | recv linkHandle => exact h.recv hcalled

lemma Inv.deliverRecv (h : s.Inv) {linkHandle : ℕ} (bytes : Option Bytes) :
    Quiet s (s.deliverRecv linkHandle bytes) := by
  unfold AndroidRadio.deliverRecv
  split
  · exact h.quiet
  · rename_i id hpending
    have hcalled := h.ids.recv linkHandle id hpending
    have htaken := h.setPendingRecv linkHandle none nofun
    refine htaken.trans ?_
    cases bytes with
    | none => exact htaken.inv.error hcalled _
    | some bytes => exact htaken.inv.answer hcalled nofun rfl

lemma Inv.onCharacteristicWrite (h : s.Inv) {linkHandle status : ℕ} :
    Quiet s (s.onCharacteristicWrite linkHandle status) := by
  unfold AndroidRadio.onCharacteristicWrite
  split
  · exact h.quiet
  · rename_i id hpending
    obtain ⟨bytes, hcalled⟩ := h.ids.send linkHandle id hpending
    have htaken := h.setPendingSend linkHandle none nofun
    exact htaken.trans (htaken.inv.sendResult hcalled _)

lemma Inv.onAdvertisingSetStarted (h : s.Inv) {status : ℕ} :
    Quiet s (s.onAdvertisingSetStarted id status) := by
  unfold AndroidRadio.onAdvertisingSetStarted
  split
  · rename_i hmem
    obtain ⟨token, hcalled⟩ := h.ids.advertise id hmem
    split
    · exact h.answer hcalled (Or.inl rfl) rfl
    · have hoff : Quiet s { s with onAir := s.onAir.filter fun set => set.1 ≠ id } :=
        ⟨{ h with }, rfl, rfl⟩
      exact hoff.trans (hoff.inv.error hcalled _)
  · exact h.quiet

/-- A link for an operation that has reached the bridge. -/
lemma Inv.openLink (h : s.Inv) (hcalled : Called s.pending s.begun id operation)
    (hopens : operation.opens = true) (hbound : s.nextLinkHandle < 2 ^ 64)
    {central server : List (ℕ × ℕ)} {accepts : List ℕ}
    (haccepts : ∀ id ∈ accepts, id ∈ s.pendingAcceptRequestIds) :
    ({ s with
        nextLinkHandle := s.nextLinkHandle + 1
        centralLinks := central
        serverLinks := server
        pendingAcceptRequestIds := accepts
        opened := s.opened ++ [s.nextLinkHandle] }.resolveOneshot id
      (.bytes (toBeBytes s.nextLinkHandle))).Inv where
  calls := h.calls.resolve hcalled (suits_link hopens _)
  handles := by
    unfold resolveOneshot
    dsimp only
    rw [worth_answers_resolve hcalled.1, links_link hopens hbound]
    exact h.handles.open
  ids := { h.ids.mono fun _ _ => called_resolve with
    accept := fun id' hid => called_resolve (h.ids.accept id' (haccepts id' hid)) }

lemma lost_openLink (hrequest : s.pending.request id = some operation)
    (hopens : operation.opens = true) {s' : AndroidRadio} {b : Bytes}
    (hpending : s'.pending = s.pending) (hunmatched : s'.unmatched = s.unmatched) :
    (s'.resolveOneshot id (.bytes b)).lost = [] ↔ s.lost = [] ∧ s.pending.Awaits id := by
  unfold lost resolveOneshot
  dsimp only
  rw [hpending, hunmatched, worth_unclaimed_resolve hrequest]
  by_cases hawaits : s.pending.Awaits id
  · simp [hawaits]
  · simp [hawaits, links_ne_nil hopens]

lemma Inv.onServicesDiscovered (h : s.Inv) (hbound : s.nextLinkHandle < 2 ^ 64) {gatt : ℕ}
    {discovery : Discovery} :
    (s.onServicesDiscovered gatt discovery).Inv ∧
      ((s.onServicesDiscovered gatt discovery).lost = [] ↔
        s.lost = [] ∧ s.Met (.servicesDiscovered gatt discovery)) := by
  unfold AndroidRadio.onServicesDiscovered
  split
  · rename_i id hgatt
    obtain ⟨peerHandle, hcalled⟩ := h.ids.connect id (List.mem_of_getElem? hgatt)
    have hclosed : Quiet s { s with gatts := s.gatts.set gatt none } :=
      ⟨{ h with ids := h.ids.closes gatt }, rfl, rfl⟩
    cases discovery with
    | failed status =>
      have hquiet := hclosed.trans (hclosed.inv.error hcalled
        ("service discovery failed, status=" ++ toString status))
      exact ⟨hquiet.inv, by rw [← hquiet.lost_eq]; exact (and_iff_left trivial).symm⟩
    | missing =>
      have hquiet := hclosed.trans (hclosed.inv.error hcalled "PARDA characteristic not found on peer")
      exact ⟨hquiet.inv, by rw [← hquiet.lost_eq]; exact (and_iff_left trivial).symm⟩
    | found =>
      refine ⟨h.openLink hcalled rfl hbound fun _ hid => hid, ?_⟩
      refine (lost_openLink hcalled.1 rfl rfl rfl).trans (and_congr_right fun _ => ?_)
      constructor
      · intro hawaits id' hgatt'
        rw [hgatt] at hgatt'
        obtain rfl := Option.some.inj (Option.some.inj hgatt')
        exact hawaits
      · intro hmet
        exact hmet id hgatt
  · rename_i hnone
    refine ⟨h, (and_iff_left ?_).symm⟩
    cases discovery with
    | found => exact fun id hid => absurd hid (hnone id)
    | _ => trivial

lemma Inv.onServerConnected (h : s.Inv) (hbound : s.nextLinkHandle < 2 ^ 64) {device : ℕ} :
    (s.onServerConnected device).Inv ∧
      ((s.onServerConnected device).lost = [] ↔
        s.lost = [] ∧ s.Met (.serverConnected device)) := by
  unfold AndroidRadio.onServerConnected
  split
  · rename_i hserver
    dsimp only
    split
    · rename_i id rest hqueue
      have hcalled : Called s.pending s.begun id .accept :=
        h.ids.accept id (by rw [hqueue]; exact List.mem_cons_self)
      refine ⟨h.openLink hcalled rfl hbound fun id' hid => ?_, ?_⟩
      · rw [hqueue]
        exact List.mem_cons_of_mem id hid
      · refine (lost_openLink hcalled.1 rfl rfl rfl).trans (and_congr_right fun _ => ?_)
        simp [Met, hserver, hqueue]
    · rename_i hqueue
      refine ⟨⟨h.calls, h.handles.unmatch, h.ids⟩, ?_⟩
      simp [lost, Met, hserver, hqueue]
  · rename_i hserver
    exact ⟨h, by simp [Met, hserver]⟩

lemma Inv.begin (h : s.Inv) : Quiet s (s.step (.begin operation)) where
  inv :=
    { calls := h.calls.register
      handles := by
        dsimp only [step]
        rw [answers_register, h.calls.registry.worth_register fun _ he => he]
        exact h.handles
      ids := h.ids.mono fun id' operation' hcalled => by
        have hdrawn : s.pending.request id' ≠ none := by
          rw [hcalled.1]
          exact Option.some_ne_none _
        have hne : id' ≠ s.pending.nextId := (h.calls.registry.lt_nextId hdrawn).ne
        refine ⟨?_, fun hmem => (List.mem_cons.mp hmem).elim hne hcalled.2⟩
        dsimp only [step]
        rw [request_register_of_ne hne]
        exact hcalled.1 }
  lost_eq := by
    unfold lost
    dsimp only [step]
    rw [unclaimed_register,
      h.calls.registry.worth_register fun _ => h.calls.registry.mem_answers_of_unclaimed]
  nextLinkHandle_eq := rfl

/-- An operation reaches the bridge. -/
lemma Inv.reach (h : s.Inv) : Quiet s { s with begun := s.begun.filter (· ≠ id) } where
  inv :=
    { calls := h.calls.reach
      handles := h.handles
      ids := h.ids.mono fun _ _ hcalled => ⟨hcalled.1, fun hmem => hcalled.2 (List.mem_filter.mp hmem).1⟩ }
  lost_eq := rfl
  nextLinkHandle_eq := rfl

lemma Inv.callBridge (h : s.Inv) : Quiet s (s.step (.callBridge id p)) := by
  dsimp only [step]
  split
  · split
    · rename_i operation hrequest
      exact h.reach.trans (h.reach.inv.call ⟨hrequest, by simp⟩)
    · exact h.reach
  · exact h.quiet

lemma called_abandon {pending : Registry Operation OneshotResult} {begun : List ℕ} {id' : ℕ}
    {operation' : Operation} (h : Called pending begun id' operation') :
    Called (pending.abandon id) begun id' operation' := by
  refine ⟨?_, h.2⟩
  rw [request_abandon]
  exact h.1

lemma Inv.callFails (h : s.Inv) {message : String} : Quiet s (s.step (.callFails id message)) := by
  dsimp only [step]
  split
  · rename_i hid
    split
    · rename_i operation hrequest
      refine ⟨⟨h.calls.fail hid hrequest message, ?_, ?_⟩, ?_, rfl⟩
      · dsimp only
        rw [answers_abandon, worth_congr fun _ _ => congrFun request_abandon _]
        exact h.handles
      · exact h.reach.inv.ids.mono fun _ _ => called_abandon
      · unfold lost
        dsimp only
        rw [h.calls.registry.worth_unclaimed_abandon,
          h.calls.registry.worth_of_awaits (h.calls.begun_awaits id hid), List.append_nil]
    · exact h.quiet
  · exact h.quiet

lemma Inv.wake (h : s.Inv) : Quiet s (s.step (.wake id)) := by
  dsimp only [step]
  split
  · exact h.quiet
  · rename_i hid
    refine ⟨⟨h.calls.take hid, ?_, ?_⟩, ?_, rfl⟩
    · dsimp only
      rw [answers_take, worth_congr fun _ _ => congrFun request_take _]
      exact h.handles
    · refine h.ids.mono fun id' operation' hcalled => ⟨?_, hcalled.2⟩
      dsimp only
      rw [request_take]
      exact hcalled.1
    · unfold lost
      dsimp only
      rw [unclaimed_take, worth_congr fun _ _ => congrFun request_take _]

lemma Inv.drop (h : s.Inv) :
    (s.step (.drop id)).Inv ∧ ((s.step (.drop id)).lost = [] ↔ s.lost = [] ∧ s.Met (.drop id)) := by
  dsimp only [step]
  split
  · rename_i hid
    exact ⟨h, (and_iff_left fun hnot => absurd hid hnot).symm⟩
  · rename_i hid
    refine ⟨⟨h.calls.abandon hid, ?_, h.ids.mono fun _ _ => called_abandon⟩, ?_⟩
    · dsimp only
      rw [answers_abandon, worth_congr fun _ _ => congrFun request_abandon _]
      exact h.handles
    · unfold lost
      dsimp only
      rw [h.calls.registry.worth_unclaimed_abandon]
      simp only [List.append_eq_nil_iff, Met, hid, not_false_eq_true, forall_const]
      exact and_right_comm

/-- A quiet step loses nothing and may be taken. -/
lemma Quiet.sound {s' : AndroidRadio} {a : RadioLabel} (h : Quiet s s') (hmet : s.Met a) :
    s'.Inv ∧ (s'.lost = [] ↔ s.lost = [] ∧ s.Met a) ∧ s'.nextLinkHandle ≤ s.nextLinkHandle + 1 := by
  refine ⟨h.inv, ?_, ?_⟩
  · rw [h.lost_eq]
    exact (and_iff_left hmet).symm
  · rw [h.nextLinkHandle_eq]
    exact Nat.le_succ _

lemma sound_step (h : s.Inv) (hbound : s.nextLinkHandle < 2 ^ 64) (a : RadioLabel) :
    (s.step a).Inv ∧ ((s.step a).lost = [] ↔ s.lost = [] ∧ s.Met a) ∧
      (s.step a).nextLinkHandle ≤ s.nextLinkHandle + 1 := by
  cases a with
  | drawId =>
    have hids : Quiet s (s.step .drawId) := by
      refine ⟨⟨{ h.calls with registry := h.calls.registry.drawId }, h.handles, h.ids⟩, rfl, rfl⟩
    exact hids.sound trivial
  | begin operation => exact h.begin.sound trivial
  | callBridge id platform => exact h.callBridge.sound trivial
  | callFails id message => exact h.callFails.sound trivial
  | wake id => exact h.wake.sound trivial
  | drop id => exact ⟨h.drop.1, h.drop.2, by dsimp only [step]; split <;> exact Nat.le_succ _⟩
  | advertisingSetStarted id status => exact h.onAdvertisingSetStarted.sound trivial
  | servicesDiscovered gatt discovery =>
    refine ⟨(h.onServicesDiscovered hbound).1, (h.onServicesDiscovered hbound).2, ?_⟩
    dsimp only [step, onServicesDiscovered]
    split
    · cases discovery with
      | found => exact le_rfl
      | _ => exact Nat.le_succ _
    · exact Nat.le_succ _
  | centralDisconnected gatt linkHandle =>
    exact Quiet.sound ⟨{ h with }, rfl, rfl⟩ trivial
  | characteristicChanged gatt linkHandle value =>
    dsimp only [step]
    split
    · exact (h.deliverRecv value).sound trivial
    · exact h.quiet.sound trivial
  | characteristicWrite gatt linkHandle status =>
    dsimp only [step]
    split
    · exact h.onCharacteristicWrite.sound trivial
    · exact h.quiet.sound trivial
  | serverConnected device =>
    refine ⟨(h.onServerConnected hbound).1, (h.onServerConnected hbound).2, ?_⟩
    dsimp only [step, onServerConnected]
    split
    · split
      · exact le_rfl
      · exact le_rfl
    · exact Nat.le_succ _
  | serverDisconnected device linkHandle =>
    exact Quiet.sound ⟨{ h with }, rfl, rfl⟩ trivial
  | characteristicWriteRequest device linkHandle value =>
    dsimp only [step]
    split
    · exact (h.deliverRecv (some value)).sound trivial
    · exact h.quiet.sound trivial

lemma Inv.returnedLinks_eq (h : s.Inv) : s.returnedLinks = s.pending.takenWorth links := by
  unfold returnedLinks returned takenWorth
  rw [List.filterMap_append, List.filterMap_map, List.filterMap_map]
  have hfailures : s.failures.filterMap ((fun e => linkOf e.2) ∘ fun e =>
      ((e.1, .error e.2) : ℕ × Except RadioError Outcome)) = [] := by
    rw [List.filterMap_eq_nil_iff]
    exact fun _ _ => rfl
  rw [hfailures, List.append_nil, List.filterMap_eq_flatMap_toList]
  apply List.flatMap_congr
  intro e he
  exact linkOf_finish (h.calls.registry.suits_of_taken he)

lemma Inv.safe (h : s.Inv) : s.Safe where
  once := by
    unfold returned
    rw [List.map_append, List.map_map, List.map_map]
    refine List.Nodup.append h.calls.registry.taken_once h.calls.failed_once ?_
    intro id htaken hfailed
    obtain ⟨e, he, rfl⟩ := List.mem_map.mp htaken
    obtain ⟨f, hf, heq⟩ := List.mem_map.mp hfailed
    exact h.calls.failed_only f hf e he heq.symm
  answered e he := by
    rcases List.mem_append.mp he with he | he
    · obtain ⟨e', he', rfl⟩ := List.mem_map.mp he
      obtain ⟨hrequest, hfirst⟩ := h.calls.registry.taken e' he'
      exact ⟨e'.2.1, hrequest,
        Or.inr ⟨e'.2.2, hfirst, h.calls.registry.suits_of_taken he', rfl⟩⟩
    · obtain ⟨f, hf, rfl⟩ := List.mem_map.mp he
      obtain ⟨operation, hrequest, message, hmessage⟩ := h.calls.failed f hf
      exact ⟨operation, hrequest, Or.inl ⟨message, congrArg Except.error hmessage⟩⟩
  distinct := h.handles.opened_nodup
  accounted := by
    rw [h.handles.opened_eq, h.calls.registry.conserved, h.returnedLinks_eq]
    unfold lost
    rw [← Multiset.coe_add]
    exact add_assoc _ _ _

lemma inv_start : Inv {} where
  calls := ⟨Registry.inv_start, nofun, nofun, List.nodup_nil, nofun, nofun⟩
  handles := ⟨nofun, List.nodup_nil, rfl⟩
  ids := ⟨nofun, nofun, nofun, nofun, nofun⟩

/-- The rule for runs that give out fewer handles than there are. -/
lemma Inv.run (labels : List RadioLabel) (h : s.Inv)
    (hbound : s.nextLinkHandle + labels.length ≤ 2 ^ 64) :
    EveryState AndroidRadio.step Inv s labels ∧
      ((Machine.run AndroidRadio.step s labels).lost = [] ↔
        s.lost = [] ∧ EveryStep AndroidRadio.step Met s labels) := by
  induction labels generalizing s with
  | nil => exact ⟨h, (and_iff_left trivial).symm⟩
  | cons a labels ih =>
    rw [List.length_cons] at hbound
    obtain ⟨hinv, hlost, hnext⟩ := sound_step h (by omega) a
    obtain ⟨hstates, hrun⟩ := ih hinv (by omega)
    refine ⟨⟨h, hstates⟩, ?_⟩
    rw [run_cons, hrun, hlost, EveryStep, and_assoc]

/-- In every order of calls, callbacks and drops: an operation returns at most once, with what it
makes of the first result for its own id, no two links share a handle, and each is returned by one
operation, is on its way to one, or is lost. None is lost in exactly the runs where every link that
is given out finds an operation waiting that is not dropped with it. -/
theorem operations_answered (labels : List RadioLabel) (hbound : labels.length < 2 ^ 63) :
    EveryState step Safe {} labels ∧
      ((run step {} labels).lost = [] ↔ EveryStep step Met {} labels) := by
  obtain ⟨hstates, hlost⟩ := inv_start.run labels (by
    change 1 + labels.length ≤ 2 ^ 64
    omega)
  exact ⟨hstates.mono fun s h => h.safe, hlost.trans (and_iff_right rfl)⟩

end Steps

section Sample

/-- A mesh node is stopped while it waits for a connection, and another is started. The first
connection goes to the request of the stopped one. -/
def restarted : List RadioLabel :=
  [.begin .accept, .callBridge 1 {}, .drop 1, .begin .accept, .callBridge 2 {},
    .begin (.connect [65]), .callBridge 3 {}, .serverConnected 7, .serverConnected 8,
    .servicesDiscovered 0 .found, .wake 2, .wake 3]

theorem operations_answered_restarted :
    let s := run step {} restarted
    (EveryState step Safe {} restarted ∧ (s.lost = [] ↔ EveryStep step Met {} restarted)) ∧
      s.lost = [1] ∧ s.returned = [(2, .ok (.link 2)), (3, .ok (.link 3))] :=
  ⟨operations_answered restarted (by decide), by decide +kernel, rfl⟩

end Sample

end AndroidRadio

end Parda.MobileBridge
