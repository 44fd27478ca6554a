import Parda.Lib.Ledger
import Parda.Lib.Machine
import Parda.Lib.Table
import Parda.Protocol.Identity

/-!
# The relay's key directory

Model of the prekey bundles of `server/src/store.rs` and of their two routes. A fetch
leaves the stored bundle where it is, so what a response carries is decided by the last
publication before it. The `base64` encoder is a parameter.
-/

namespace Parda.Server

open Protocol

/-- A bundle as it is uploaded, with its keys in base64. -/
structure PreKeyBundleJson where
  registrationId : UInt32
  deviceId : UInt32
  identityKey : String
  signedPrekeyId : UInt32
  signedPrekeyPublic : String
  signedPrekeySignature : String
  oneTimePrekeyId : Option UInt32
  oneTimePrekeyPublic : Option String
deriving DecidableEq

/-- `bundle_to_json` of the uploading peer. -/
def bundleToJson (b64 : Bytes → String) (bundle : PreKeyBundle) : PreKeyBundleJson where
  registrationId := bundle.registrationId
  deviceId := 1
  identityKey := b64 bundle.identityKey
  signedPrekeyId := bundle.signedPrekeyId
  signedPrekeyPublic := b64 bundle.signedPrekeyPublic
  signedPrekeySignature := b64 bundle.signature
  oneTimePrekeyId := bundle.oneTimePrekey.map Prod.fst
  oneTimePrekeyPublic := bundle.oneTimePrekey.map (fun prekey => b64 prekey.2)

structure BundleRow where
  userId : String
  bundle : PreKeyBundleJson
deriving DecidableEq

def putBundle (rows : List BundleRow) (userId : String) (bundle : PreKeyBundleJson) :
    List BundleRow :=
  Table.upsert BundleRow.userId rows ⟨userId, bundle⟩

def getBundle (rows : List BundleRow) (userId : String) : Option PreKeyBundleJson :=
  (rows.find? (fun row => row.userId = userId)).map BundleRow.bundle

inductive PrekeyResponse where
  | ok (bundle : PreKeyBundleJson)
  | notFound (error : String)
deriving DecidableEq

/-- `GET /v1/keys/{user_id}`. -/
def getPrekeyBundle (rows : List BundleRow) (userId : String) : PrekeyResponse :=
  match getBundle rows userId with
  | some bundle => .ok bundle
  | none => .notFound "no prekey bundle found for user"

/-- The response contains the one-time prekey with the given key text. -/
def PrekeyResponse.Contains : PrekeyResponse → String → Prop
  | .ok bundle, key => bundle.oneTimePrekeyPublic = some key
  | .notFound _, _ => False

instance decidableContains (r : PrekeyResponse) (key : String) : Decidable (r.Contains key) :=
  match r with
  | .ok bundle => inferInstanceAs (Decidable (bundle.oneTimePrekeyPublic = some key))
  | .notFound _ => isFalse id

inductive DirectoryEvent where
  | published (userId : String) (identity : LocalIdentity)
  | fetched (userId : String)

def DirectoryEvent.puts (e : DirectoryEvent) (userId : String) (identity : LocalIdentity) : Prop :=
  e = .published userId identity

/-- A publication replaces what its user published before. -/
def DirectoryEvent.clears : DirectoryEvent → String → LocalIdentity → Prop
  | .published user _, userId, _ => user = userId
  | .fetched _, _, _ => False

/-- The directory, with the responses it gave and the ledger of what it was asked. -/
structure Directory where
  rows : List BundleRow := []
  responses : List PrekeyResponse := []
  ledger : List DirectoryEvent := []

/-- A user publishes a bundle built from an identity, or an initiator asks for one. -/
inductive DirectoryLabel where
  | publish (userId : String) (identity : LocalIdentity)
  | fetch (userId : String)

/-- `userId` last published from a pool whose first prekey has the given key text. -/
def Offers (b64 : Bytes → String) (ledger : List DirectoryEvent) (userId key : String) : Prop :=
  ∃ identity, Ledger.Remains DirectoryEvent.puts DirectoryEvent.clears userId identity ledger ∧
    identity.poolHead.map b64 = some key

/-- A fetch asked for a user who then offered the key. -/
def Found (b64 : Bytes → String) (ledger : List DirectoryEvent) (key : String) : Prop :=
  Ledger.Happened (fun e older => ∃ userId, e = .fetched userId ∧ Offers b64 older userId key) ledger

section Ledger

variable {b64 : Bytes → String} {ledger : List DirectoryEvent} {userId user key : String}

lemma offers_published {identity : LocalIdentity} :
    Offers b64 (.published user identity :: ledger) userId key ↔
      (user = userId ∧ identity.poolHead.map b64 = some key) ∨
      (user ≠ userId ∧ Offers b64 ledger userId key) := by
  unfold Offers
  constructor
  · rintro ⟨identity', hrem, hkey⟩
    rcases Ledger.remains_cons.mp hrem with hput | ⟨hclear, hrem⟩
    · cases hput
      exact Or.inl ⟨rfl, hkey⟩
    · exact Or.inr ⟨hclear, identity', hrem, hkey⟩
  · rintro (⟨rfl, hkey⟩ | ⟨hne, identity', hrem, hkey⟩)
    · exact ⟨identity, Ledger.remains_cons.mpr (Or.inl rfl), hkey⟩
    · exact ⟨identity', Ledger.remains_cons.mpr (Or.inr ⟨hne, hrem⟩), hkey⟩

@[simp] lemma offers_fetched :
    Offers b64 (.fetched user :: ledger) userId key ↔ Offers b64 ledger userId key := by
  simp [Offers, Ledger.remains_cons, DirectoryEvent.puts, DirectoryEvent.clears]

@[simp] lemma found_published {identity : LocalIdentity} :
    Found b64 (.published user identity :: ledger) key ↔ Found b64 ledger key := by
  simp [Found, Ledger.happened_cons]

@[simp] lemma found_fetched : Found b64 (.fetched user :: ledger) key ↔
    Offers b64 ledger user key ∨ Found b64 ledger key := by
  simp [Found, Ledger.happened_cons]

end Ledger

namespace Directory

section Model

variable (b64 : Bytes → String) (refuses : PreKeyBundle → Option String)

def step (d : Directory) : DirectoryLabel → Directory
  | .publish userId identity =>
    match identity.buildPrekeyBundle refuses with
    | .error _ => d
    | .ok bundle =>
      { d with
        rows := putBundle d.rows userId (bundleToJson b64 bundle)
        ledger := .published userId identity :: d.ledger }
  | .fetch userId =>
    { d with
      responses := d.responses ++ [getPrekeyBundle d.rows userId]
      ledger := .fetched userId :: d.ledger }

/-- No one-time prekey is contained in two responses. -/
def ServedOnce (d : Directory) : Prop :=
  d.responses.Pairwise (fun r r' => ∀ key, ¬(r.Contains key ∧ r'.Contains key))

/-- A fetch asks for a user whose pool head no earlier fetch found at the head of the
pool of the user it asked for. -/
def HeadNotFetched (d : Directory) : DirectoryLabel → Prop
  | .publish _ _ => True
  | .fetch userId => ∀ key, Offers b64 d.ledger userId key → ¬Found b64 d.ledger key

/-- The ledger tells what the directory serves and what it has served. -/
structure Inv (d : Directory) : Prop where
  serves : ∀ userId key,
    (getPrekeyBundle d.rows userId).Contains key ↔ Offers b64 d.ledger userId key
  served : ∀ key, (∃ r ∈ d.responses, r.Contains key) ↔ Found b64 d.ledger key

end Model

section Runs

variable {b64 : Bytes → String} {refuses : PreKeyBundle → Option String}

lemma inv_start : Inv b64 {} where
  serves userId key := by
    simp [getPrekeyBundle, getBundle, PrekeyResponse.Contains, Offers, Ledger.Remains]
  served key := by simp [Found, Ledger.Happened]

lemma getPrekeyBundle_putBundle (rows : List BundleRow) (user userId : String)
    (bundle : PreKeyBundleJson) :
    getPrekeyBundle (putBundle rows user bundle) userId =
      if user = userId then .ok bundle else getPrekeyBundle rows userId := by
  unfold getPrekeyBundle getBundle putBundle
  rw [Table.find?_upsert]
  by_cases h : user = userId
  · simp [h]
  · simp [h]

/-- The key text of an uploaded bundle is that of the head of the pool. -/
lemma contains_bundleToJson {identity : LocalIdentity} {bundle : PreKeyBundle} {key : String}
    (h : identity.buildPrekeyBundle refuses = .ok bundle) :
    (PrekeyResponse.ok (bundleToJson b64 bundle)).Contains key ↔
      identity.poolHead.map b64 = some key := by
  rw [← LocalIdentity.buildPrekeyBundle_oneTimePrekey h, Option.map_map]
  rfl

theorem inv_step (d : Directory) (label : DirectoryLabel) (hd : Inv b64 d) :
    Inv b64 (d.step b64 refuses label) := by
  cases label with
  | publish userId identity =>
    simp only [step]
    cases hbuild : identity.buildPrekeyBundle refuses with
    | error e => exact hd
    | ok bundle =>
      constructor
      · intro user key
        rw [getPrekeyBundle_putBundle, offers_published]
        by_cases h : userId = user
        · simp [h, contains_bundleToJson hbuild]
        · simp [h, hd.serves]
      · intro key
        rw [found_published]
        exact hd.served key
  | fetch userId =>
    constructor
    · intro user key
      rw [step, offers_fetched]
      exact hd.serves user key
    · intro key
      rw [step, found_fetched, ← hd.serves, ← hd.served]
      simp [or_and_right, exists_or, or_comm]

lemma servedOnce_step (d : Directory) (label : DirectoryLabel) (hd : Inv b64 d) :
    (d.step b64 refuses label).ServedOnce ↔ d.ServedOnce ∧ d.HeadNotFetched b64 label := by
  cases label with
  | publish userId identity =>
    have hresponses : (d.step b64 refuses (.publish userId identity)).responses = d.responses := by
      simp only [step]
      cases identity.buildPrekeyBundle refuses with
      | _ => rfl
    unfold ServedOnce
    rw [hresponses]
    exact (and_iff_left trivial).symm
  | fetch userId =>
    simp only [ServedOnce, step, HeadNotFetched, List.pairwise_append, List.pairwise_cons]
    constructor
    · rintro ⟨hold, -, hnew⟩
      refine ⟨hold, fun key hoffers hfound => ?_⟩
      obtain ⟨r, hr, hkey⟩ := (hd.served key).mpr hfound
      exact hnew r hr _ List.mem_cons_self key ⟨hkey, (hd.serves userId key).mpr hoffers⟩
    · rintro ⟨hold, hcond⟩
      refine ⟨hold, by simp, ?_⟩
      intro r hr r' hr' key hboth
      obtain rfl := List.mem_singleton.mp hr'
      exact hcond key ((hd.serves userId key).mp hboth.2) ((hd.served key).mp ⟨r, hr, hboth.1⟩)

/-- A run serves no one-time prekey twice exactly when no fetch of it finds a pool head
that an earlier one found. -/
theorem servedOnce_iff (b64 : Bytes → String) (refuses : PreKeyBundle → Option String)
    (labels : List DirectoryLabel) :
    (Machine.run (step b64 refuses) {} labels).ServedOnce ↔
      Machine.EveryStep (step b64 refuses) (HeadNotFetched b64) {} labels := by
  have hmonitor : (Machine.run (step b64 refuses) {} labels).ServedOnce ↔
      ServedOnce {} ∧ Machine.EveryStep (step b64 refuses) (HeadNotFetched b64) {} labels :=
    Machine.run_iff_everyStep inv_step servedOnce_step inv_start labels
  rw [hmonitor]
  exact and_iff_right List.Pairwise.nil

end Runs

section TwoInitiators

def base64Char (n : ℕ) : Char :=
  if n < 26 then Char.ofNat (65 + n)
  else if n < 52 then Char.ofNat (71 + n)
  else if n < 62 then Char.ofNat (n - 4)
  else if n = 62 then '+' else '/'

/-- Base64 with the standard alphabet and padding. -/
def base64Chars : Bytes → List Char
  | [] => []
  | [a] => [base64Char (a.toNat / 4), base64Char (a.toNat % 4 * 16), '=', '=']
  | [a, b] => [base64Char (a.toNat / 4), base64Char (a.toNat % 4 * 16 + b.toNat / 16),
      base64Char (b.toNat % 16 * 4), '=']
  | a :: b :: c :: rest =>
    [base64Char (a.toNat / 4), base64Char (a.toNat % 4 * 16 + b.toNat / 16),
      base64Char (b.toNat % 16 * 4 + c.toNat / 64), base64Char (c.toNat % 64)] ++ base64Chars rest

def base64 (bytes : Bytes) : String := String.ofList (base64Chars bytes)

def sampleIdentity : LocalIdentity :=
  .generate 1 (5 :: List.replicate 32 1) (5 :: List.replicate 32 2) (List.replicate 64 3)
    (fun i => 5 :: List.replicate 32 (UInt8.ofNat i))

/-- One publication that two initiators fetch. -/
def twoInitiators : List DirectoryLabel :=
  [.publish "bob" sampleIdentity, .fetch "bob", .fetch "bob"]

theorem not_servedOnce_twoInitiators :
    ¬(Machine.run (step base64 (fun _ => none)) {} twoInitiators).ServedOnce := by
  intro h
  let key := base64 (5 :: List.replicate 32 0)
  have hboth : ∀ r ∈ (Machine.run (step base64 (fun _ => none)) {} twoInitiators).responses,
      r.Contains key := by decide +kernel
  have hpair := List.pairwise_iff_getElem.mp h 0 1 (by decide +kernel) (by decide +kernel)
    (by decide) key
  exact hpair ⟨hboth _ (List.getElem_mem _), hboth _ (List.getElem_mem _)⟩

end TwoInitiators

end Directory

end Parda.Server
