import Parda.Android.SignalStore
import Parda.Lib.Machine
import Parda.Server.Base64

/-!
# Disk and memory of the Signal store

Every operation of the persistent store edits the in-memory store and the preferences.
Each place of a record has a key of its own, so reloading in any order gives what the
entries say, and the two sides part exactly where an operation drops more keys than places.
-/

namespace Parda.Android

open Machine Text

/-- The key of a place. -/
def Place.key : Place → String
  | .preKey id => preKeyKey prekeyStart id
  | .signedPreKey id => preKeyKey signedPrekeyStart id
  | .session address => addressKey sessionStart address
  | .identity address => addressKey trustedIdentityStart address

namespace PersistentSignalStore

section Statements

variable (a : Platform) {L : Libsignal}

/-- Reloading from the preferences, listed in any order, gives what the memory holds. -/
def Mirrors (m : PersistentSignalStore L) : Prop :=
  ∀ all : Prefs, all.Perm m.prefs → ∃ m', load a L m.prefs all = some m' ∧
    ∀ place, L.holds m'.delegate place = L.holds m.delegate place

/-- An operation on the sessions of one name leaves the records of other names, on disk
and in memory. -/
def OthersKept (m : PersistentSignalStore L) (label : StoreLabel L) : Prop :=
  ∀ name, label.name = some name → ∀ place : Place, place.name ≠ some name →
    (m.step a label).prefs.getString place.key = m.prefs.getString place.key ∧
      L.holds (m.step a label).delegate place = L.holds m.delegate place

/-- The keys of one name start like the keys of the other. -/
def StartsAlike (name name' : String) : Prop := (name ++ "::").toList <+: (name' ++ "::").toList

instance (name name' : String) : Decidable (StartsAlike name name') :=
  inferInstanceAs (Decidable (_ <+: _))

/-- No session is held under another name whose keys start alike, and before a burn no
trusted identity under any such name, the burned one included. -/
def Separate (m : PersistentSignalStore L) : StoreLabel L → Prop
  | .deleteAllSessions name =>
    ∀ address, L.session m.delegate address ≠ none → StartsAlike name address.name →
      address.name = name
  | .burnConversation name =>
    (∀ address, L.session m.delegate address ≠ none → StartsAlike name address.name →
      address.name = name) ∧
    ∀ address, L.identity m.delegate address ≠ none → ¬StartsAlike name address.name
  | _ => True

end Statements

section Keys

variable {a : Platform} {L : Libsignal}

/-- What is stored on disk for a placed record. -/
def blob (a : Platform) : L.Placed → String
  | .preKey _ record => a.encodeBase64 (L.preKeyRecord.serialize record)
  | .signedPreKey _ record => a.encodeBase64 (L.signedPreKeyRecord.serialize record)
  | .session _ record => a.encodeBase64 (L.sessionRecord.serialize record)
  | .identity _ key => a.encodeBase64 (L.identityKey.serialize key)

def entry (a : Platform) (placed : L.Placed) : String × PrefValue :=
  (placed.place.key, .string (blob a placed))

lemma toList_preKeyKey (start : String) (id : Int32) :
    (preKeyKey start id).toList = start.toList ++ decimal id.toInt := by
  unfold preKeyKey decimal
  rw [String.toList_append, Int.toString_eq_repr]

lemma toList_addressKey (start : String) (address : SignalProtocolAddress) :
    (addressKey start address).toList =
      start.toList ++ (address.name.toList ++ [':', ':'] ++ decimal address.deviceId.toInt) := by
  unfold addressKey decimal
  simp [Int.toString_eq_repr]

lemma parseAddress_key (ha : a.Correct) (address : SignalProtocolAddress) :
    parseAddress a (address.name.toList ++ [':', ':'] ++ decimal address.deviceId.toInt) =
      some address := by
  have hcolon : ':' ∉ decimal address.deviceId.toInt := notMem_decimal rfl (by decide) _
  unfold parseAddress
  rw [lastIndexOf_double _ hcolon]
  have hdrop : (address.name.toList ++ [':', ':'] ++ decimal address.deviceId.toInt).drop
      (address.name.toList.length + 2) = decimal address.deviceId.toInt := by
    rw [List.drop_left']
    simp
  have htake : (address.name.toList ++ [':', ':'] ++ decimal address.deviceId.toInt).take
      address.name.toList.length = address.name.toList := by
    rw [List.append_assoc, List.take_left']
    rfl
  simp only [hdrop, htake, toIntOrNull_decimal ha.digits, String.ofList_toList]

lemma decodeRecord_encode (ha : a.Correct) {ρ : Type} {codec : RecordCodec ρ} (h : codec.RoundTrips)
    (record : ρ) : decodeRecord a codec (a.encodeBase64 (codec.serialize record)) = some record := by
  unfold decodeRecord
  rw [ha.base64, Option.bind_some, h]

lemma drop_start (start : String) (rest : List Char) :
    (start.toList ++ rest).drop start.length = rest := by
  rw [← String.length_toList, List.drop_left]

lemma startsWith_start (start : String) (rest : List Char) :
    startsWith (start.toList ++ rest) start.toList = true :=
  startsWith_iff.mpr (List.prefix_append _ _)

/-- Restoring an entry that was stored puts the record in its place. -/
lemma restoreEntry_entry (ha : a.Correct) (hL : L.Correct) (target : L.Store) (placed : L.Placed) :
    restoreEntry a L target (entry a placed) = L.put target placed := by
  cases placed with
  | preKey id record =>
    have hkey := toList_preKeyKey prekeyStart id
    have hrecord := decodeRecord_encode ha hL.preKeyRecord record
    simp only [restoreEntry, entry, blob, Libsignal.Placed.place, Place.key, hkey, hrecord,
      startsWith_start, drop_start, toIntOrNull_decimal ha.digits, if_true]
    rfl
  | signedPreKey id record =>
    have hkey := toList_preKeyKey signedPrekeyStart id
    have hrecord := decodeRecord_encode ha hL.signedPreKeyRecord record
    have hprekey : ∀ rest, startsWith (signedPrekeyStart.toList ++ rest) prekeyStart.toList = false :=
      fun _ => rfl
    simp only [restoreEntry, entry, blob, Libsignal.Placed.place, Place.key, hkey, hrecord, hprekey,
      startsWith_start, drop_start, toIntOrNull_decimal ha.digits, if_true]
    rfl
  | session address record =>
    have hkey := toList_addressKey sessionStart address
    have hrecord := decodeRecord_encode ha hL.sessionRecord record
    have haddress := parseAddress_key ha address
    have hprekey : ∀ rest, startsWith (sessionStart.toList ++ rest) prekeyStart.toList = false :=
      fun _ => rfl
    have hsigned : ∀ rest,
        startsWith (sessionStart.toList ++ rest) signedPrekeyStart.toList = false := fun _ => rfl
    simp only [restoreEntry, entry, blob, Libsignal.Placed.place, Place.key, hkey, hrecord, hprekey,
      hsigned, startsWith_start, drop_start, haddress, if_true]
    rfl
  | identity address key =>
    have hkey := toList_addressKey trustedIdentityStart address
    have hrecord := decodeRecord_encode ha hL.identityKey key
    have haddress := parseAddress_key ha address
    have hprekey : ∀ rest,
        startsWith (trustedIdentityStart.toList ++ rest) prekeyStart.toList = false := fun _ => rfl
    have hsigned : ∀ rest,
        startsWith (trustedIdentityStart.toList ++ rest) signedPrekeyStart.toList = false :=
      fun _ => rfl
    have hsession : ∀ rest,
        startsWith (trustedIdentityStart.toList ++ rest) sessionStart.toList = false := fun _ => rfl
    simp only [restoreEntry, entry, blob, Libsignal.Placed.place, Place.key, hkey, hrecord, hprekey,
      hsigned, hsession, startsWith_start, drop_start, haddress, if_true]
    rfl

/-- Each place has a key of its own. -/
lemma key_injective (ha : a.Correct) : Function.Injective Place.key := by
  intro place place' h
  have hlist : place.key.toList = place'.key.toList := congrArg String.toList h
  have hcancel : ∀ {start : String} {l l' : List Char}, start.toList ++ l = start.toList ++ l' →
      l = l' := List.append_cancel_left
  have hid : ∀ {id id' : Int32}, decimal id.toInt = decimal id'.toInt → id = id' := by
    intro id id' hdecimal
    have hparsed := toIntOrNull_decimal ha.digits id
    rw [hdecimal, toIntOrNull_decimal ha.digits] at hparsed
    exact (Option.some.inj hparsed).symm
  have haddress : ∀ {x y : SignalProtocolAddress},
      x.name.toList ++ [':', ':'] ++ decimal x.deviceId.toInt =
        y.name.toList ++ [':', ':'] ++ decimal y.deviceId.toInt → x = y := by
    intro x y heq
    have hparsed := parseAddress_key ha x
    rw [heq, parseAddress_key ha] at hparsed
    exact (Option.some.inj hparsed).symm
  cases place <;> cases place' <;>
    simp only [Place.key, toList_preKeyKey, toList_addressKey] at hlist
  case preKey.preKey id id' => rw [hid (hcancel hlist)]
  case signedPreKey.signedPreKey id id' => rw [hid (hcancel hlist)]
  case session.session x y => rw [haddress (hcancel hlist)]
  case identity.identity x y => rw [haddress (hcancel hlist)]
  all_goals exact absurd hlist (by simp [prekeyStart, signedPrekeyStart, sessionStart, trustedIdentityStart])

/-- An entry says which record it was stored for. -/
lemma entry_injective (ha : a.Correct) (hL : L.Correct) :
    Function.Injective (entry a : L.Placed → String × PrefValue) := by
  intro placed placed' h
  have hplace : placed.place = placed'.place := key_injective ha (congrArg Prod.fst h)
  have hblob : blob a placed = blob a placed' := by simpa [entry] using congrArg Prod.snd h
  have hrecord : ∀ {ρ : Type} {codec : RecordCodec ρ}, codec.RoundTrips → ∀ {r r' : ρ},
      a.encodeBase64 (codec.serialize r) = a.encodeBase64 (codec.serialize r') → r = r' := by
    intro ρ codec hcodec r r' heq
    have hdecoded := decodeRecord_encode ha hcodec r
    rw [heq, decodeRecord_encode ha hcodec] at hdecoded
    exact (Option.some.inj hdecoded).symm
  cases placed <;> cases placed' <;> cases hplace
  · rw [hrecord hL.preKeyRecord hblob]
  · rw [hrecord hL.signedPreKeyRecord hblob]
  · rw [hrecord hL.sessionRecord hblob]
  · rw [hrecord hL.identityKey hblob]

end Keys

section Restoring

variable {a : Platform} {L : Libsignal} {m : PersistentSignalStore L}

/-- The keys that hold no record. -/
def IsSetting (key : String) : Prop :=
  key = keyIdentity ∨ key = keyRegistrationId ∨ key = keyLocalUserId

/-- Entries as the store writes them. -/
structure Known (a : Platform) (L : Libsignal) (prefs : Prefs) : Prop where
  distinct : Table.KeysDistinct Prod.fst prefs
  known : ∀ e ∈ prefs, IsSetting e.1 ∨ ∃ placed : L.Placed, e = entry a placed

/-- The entries are those of the records that the memory holds. -/
def Synced (a : Platform) (m : PersistentSignalStore L) : Prop :=
  ∀ placed : L.Placed, entry a placed ∈ m.prefs ↔
    L.holds m.delegate placed.place = some placed

lemma place_of_holds {store : L.Store} {place : Place} {placed : L.Placed}
    (h : L.holds store place = some placed) : placed.place = place := by
  cases place <;>
    simp only [Libsignal.holds, Option.map_eq_some_iff] at h <;>
    obtain ⟨record, -, rfl⟩ := h <;> rfl

/-- A key with an address in it has a colon, and a setting has none. -/
lemma not_isSetting_key (place : Place) : ¬IsSetting place.key := by
  rintro (h | h | h)
  all_goals
    have hlist := congrArg String.toList h
    cases place <;>
      simp [Place.key, toList_preKeyKey, toList_addressKey, keyIdentity, keyRegistrationId,
        keyLocalUserId, prekeyStart, signedPrekeyStart, sessionStart, trustedIdentityStart] at hlist
  have hcolon := congrArg (fun l : List Char => ':' ∈ l) hlist
  simp at hcolon

lemma restoreEntry_setting {e : String × PrefValue} (h : IsSetting e.1) (target : L.Store) :
    restoreEntry a L target e = target := by
  obtain ⟨key, value⟩ := e
  cases value with
  | int value => rfl
  | string blob =>
    obtain rfl | rfl | rfl : key = keyIdentity ∨ key = keyRegistrationId ∨ key = keyLocalUserId := h
    · have haddress : parseAddress a (keyIdentity.toList.drop trustedIdentityStart.length) = none := rfl
      have hprekey : startsWith keyIdentity.toList prekeyStart.toList = false := rfl
      have hsigned : startsWith keyIdentity.toList signedPrekeyStart.toList = false := rfl
      have hsession : startsWith keyIdentity.toList sessionStart.toList = false := rfl
      have htrusted : startsWith keyIdentity.toList trustedIdentityStart.toList = true := rfl
      simp only [restoreEntry, hprekey, hsigned, hsession, htrusted, haddress, if_true]
      rfl
    · rfl
    · rfl

lemma Known.perm {prefs all : Prefs} (h : Known a L prefs) (hall : all.Perm prefs) :
    Known a L all :=
  ⟨((hall.map Prod.fst).nodup_iff).mpr h.distinct, fun e he => h.known e (hall.subset he)⟩

/-- Restoring in any order puts every record in its place. -/
lemma holds_restoreInto (ha : a.Correct) (hL : L.Correct) {all : Prefs} (hall : Known a L all)
    (store : L.Store) (place : Place) (placed : L.Placed) :
    L.holds (restoreInto a L all store) place = some placed ↔
      (placed.place = place ∧ entry a placed ∈ all) ∨
        ((∀ e ∈ all, e.1 ≠ place.key) ∧ L.holds store place = some placed) := by
  induction all generalizing store with
  | nil => simp [restoreInto]
  | cons e all ih =>
    obtain ⟨hfresh, hdistinct⟩ := List.nodup_cons.mp hall.distinct
    have hrest : Known a L all := ⟨hdistinct, fun e' he' => hall.known e' (List.mem_cons_of_mem _ he')⟩
    have hstep : restoreInto a L (e :: all) store = restoreInto a L all (restoreEntry a L store e) := rfl
    rw [hstep, ih hrest, List.forall_mem_cons, List.mem_cons]
    obtain hsetting | ⟨placed', rfl⟩ := hall.known e List.mem_cons_self
    · have hne : e.1 ≠ place.key := fun heq => not_isSetting_key place (heq ▸ hsetting)
      have hne' : placed.place = place → entry a placed ≠ e := by
        rintro rfl heq
        exact hne (heq ▸ rfl)
      rw [restoreEntry_setting hsetting]
      grind
    · have hnotMem : ∀ e' ∈ all, e'.1 ≠ placed'.place.key := fun e' he' heq =>
        hfresh (List.mem_map.mpr ⟨e', he', heq⟩)
      rw [restoreEntry_entry ha hL, hL.holds_put]
      by_cases hplace : placed'.place = place
      · subst hplace
        rw [if_pos rfl]
        constructor
        · rintro (⟨hsame, hmem⟩ | ⟨-, heq⟩)
          · exact absurd (congrArg Place.key hsame) (hnotMem _ hmem)
          · obtain rfl : placed' = placed := Option.some.inj heq
            exact Or.inl ⟨rfl, Or.inl rfl⟩
        · rintro (⟨hsame, heq | hmem⟩ | ⟨⟨hne, -⟩, -⟩)
          · rw [entry_injective ha hL heq]
            exact Or.inr ⟨hnotMem, rfl⟩
          · exact absurd (congrArg Place.key hsame) (hnotMem _ hmem)
          · exact absurd rfl hne
      · have hkey : (entry a placed').1 ≠ place.key := fun heq => hplace (key_injective ha heq)
        have hne : placed.place = place → entry a placed ≠ entry a placed' := by
          rintro rfl heq
          exact hkey (congrArg Prod.fst heq).symm
        rw [if_neg hplace]
        grind

/-- What the preferences always are: known entries, with those of the enrolment. -/
structure Inv (a : Platform) (m : PersistentSignalStore L) : Prop extends Known a L m.prefs where
  enrolled : ∃ keyPair,
    (keyIdentity, .string (a.encodeBase64 (L.identityKeyPair.serialize keyPair))) ∈ m.prefs

lemma mirrors_iff (ha : a.Correct) (hL : L.Correct) (hm : Inv a m) :
    Mirrors a m ↔ Synced a m := by
  obtain ⟨keyPair, henrolled⟩ := hm.enrolled
  have hload : ∀ all, load a L m.prefs all = some ⟨m.prefs, restoreInto a L all
      (L.inMemory keyPair (m.prefs.getInt keyRegistrationId 0))⟩ := by
    intro all
    have hstring : m.prefs.getString keyIdentity =
        some (a.encodeBase64 (L.identityKeyPair.serialize keyPair)) := by
      unfold Prefs.getString
      rw [hm.distinct.find?_of_mem henrolled]
    unfold load
    rw [hstring]
    simp [decodeRecord_encode ha hL.identityKeyPair]
  have hrestored : ∀ all : Prefs, all.Perm m.prefs → ∀ place placed,
      L.holds (restoreInto a L all (L.inMemory keyPair (m.prefs.getInt keyRegistrationId 0))) place =
        some placed ↔ placed.place = place ∧ entry a placed ∈ m.prefs := by
    intro all hall place placed
    rw [holds_restoreInto ha hL (hm.perm hall), hL.holds_inMemory, hall.mem_iff]
    simp
  constructor
  · intro hmirrors placed
    obtain ⟨m', hm', hholds⟩ := hmirrors m.prefs (List.Perm.refl _)
    rw [hload, Option.some.injEq] at hm'
    rw [← hholds placed.place, ← hm', hrestored _ (List.Perm.refl _)]
    simp
  · intro hsynced all hall
    refine ⟨_, hload all, fun place => Option.ext fun placed => ?_⟩
    rw [hrestored all hall]
    constructor
    · rintro ⟨rfl, hmem⟩
      exact (hsynced placed).mp hmem
    · intro hholds
      obtain rfl := place_of_holds hholds
      exact ⟨rfl, (hsynced placed).mpr hholds⟩

end Restoring

section Operations

variable {a : Platform} {L : Libsignal} {m m' : PersistentSignalStore L}

/-- The preferences lose the keys that are gone, and the memory the places dropped. -/
structure Deletes (m m' : PersistentSignalStore L) (gone : String → Bool) (dropped : Place → Bool) :
    Prop where
  distinct : Table.KeysDistinct Prod.fst m.prefs → Table.KeysDistinct Prod.fst m'.prefs
  mem_iff : ∀ e, e ∈ m'.prefs ↔ e ∈ m.prefs ∧ gone e.1 = false
  getString : ∀ key, gone key = false → m'.prefs.getString key = m.prefs.getString key
  holds : ∀ place, L.holds m'.delegate place =
    if dropped place then none else L.holds m.delegate place

lemma getString_congr {prefs prefs' : Prefs} {key : String}
    (h : prefs.find? (fun e => e.1 = key) = prefs'.find? (fun e => e.1 = key)) :
    prefs.getString key = prefs'.getString key := by
  unfold Prefs.getString
  rw [h]

lemma deletes_remove {key : String} {place : Place} {delegate : L.Store}
    (hholds : ∀ place', L.holds delegate place' =
      if place' = place then none else L.holds m.delegate place') :
    Deletes m ⟨m.prefs.remove key, delegate⟩ (fun key' => key' = key) (fun place' => place' = place) where
  distinct h := h.filter _
  mem_iff e := by simp [Prefs.remove, Table.mem_deleteKey]
  getString key' hne := by
    apply getString_congr
    exact Table.find?_deleteKey_of_ne (by simpa using hne) m.prefs
  holds place' := by simp [hholds]

lemma removeStarting_eq (prefs : Prefs) (start : String) : prefs.removeStarting start =
    ((prefs.map Prod.fst).filter (fun key => startsWith key.toList start.toList)).foldl
      (Table.deleteKey Prod.fst) prefs := rfl

lemma mem_removeStarting {prefs : Prefs} {start : String} {e : String × PrefValue} :
    e ∈ prefs.removeStarting start ↔ e ∈ prefs ∧ startsWith e.1.toList start.toList = false := by
  rw [removeStarting_eq, Table.mem_foldl_deleteKey]
  refine and_congr_right fun he => ?_
  rw [List.mem_filter, ← Bool.not_eq_true]
  exact not_congr (and_iff_right (List.mem_map_of_mem he))

lemma getString_removeStarting {prefs : Prefs} {start key : String}
    (h : startsWith key.toList start.toList = false) :
    (prefs.removeStarting start).getString key = prefs.getString key := by
  apply getString_congr
  rw [removeStarting_eq]
  apply Table.find?_foldl_deleteKey
  simp [List.mem_filter, h]

lemma deletes_deleteAllSessions (hL : L.Correct) (name : String) :
    Deletes m (m.deleteAllSessions name)
      (fun key => startsWith key.toList (sessionStart ++ name ++ "::").toList)
      (Place.isSessionOf name) where
  distinct h := h.foldl_deleteKey _
  mem_iff _ := mem_removeStarting
  getString _ h := getString_removeStarting h
  holds place := hL.holds_deleteAllSessions m.delegate name place

lemma deletes_burnConversation (hL : L.Correct) (name : String) :
    Deletes m (m.burnConversation name)
      (fun key => startsWith key.toList (sessionStart ++ name ++ "::").toList ||
        startsWith key.toList (trustedIdentityStart ++ name ++ "::").toList)
      (Place.isSessionOf name) where
  distinct h := ((deletes_deleteAllSessions hL name).distinct h).foldl_deleteKey _
  mem_iff e := by
    rw [Bool.or_eq_false_iff, ← and_assoc, ← (deletes_deleteAllSessions hL name).mem_iff]
    exact mem_removeStarting
  getString key h := by
    rw [Bool.or_eq_false_iff] at h
    exact (getString_removeStarting h.2).trans (getString_removeStarting h.1)
  holds place := hL.holds_deleteAllSessions m.delegate name place

/-- A deletion keeps disk and memory together exactly when it drops the places whose keys
are gone. -/
lemma Deletes.synced_iff {gone : String → Bool} {dropped : Place → Bool} (h : Deletes m m' gone dropped)
    (hm : Synced a m) : Synced a m' ↔
      ∀ place, L.holds m.delegate place ≠ none → gone place.key = dropped place := by
  constructor
  · intro hm' place hheld
    obtain ⟨placed, hplaced⟩ := Option.ne_none_iff_exists'.mp hheld
    obtain rfl := place_of_holds hplaced
    have hiff := hm' placed
    rw [h.mem_iff, hm placed, h.holds, hplaced] at hiff
    change _ ∧ gone placed.place.key = false ↔ _ at hiff
    cases hgone : gone placed.place.key <;> cases hdropped : dropped placed.place <;>
      simp [hgone, hdropped] at hiff ⊢
  · intro hsame placed
    rw [h.mem_iff, hm placed, h.holds]
    change _ ∧ gone placed.place.key = false ↔ _
    cases hplaced : L.holds m.delegate placed.place with
    | none => simp
    | some placed' =>
      rw [hsame placed.place (by simp [hplaced])]
      cases hdropped : dropped placed.place <;> simp

lemma Inv.deletes {gone : String → Bool} {dropped : Place → Bool} (hm : Inv a m)
    (h : Deletes m m' gone dropped) (hkeep : gone keyIdentity = false) : Inv a m' where
  distinct := h.distinct hm.distinct
  known e he := hm.known e ((h.mem_iff e).mp he).1
  enrolled := by
    obtain ⟨keyPair, hmem⟩ := hm.enrolled
    exact ⟨keyPair, (h.mem_iff _).mpr ⟨hmem, hkeep⟩⟩

lemma Inv.put (hm : Inv a m) (placed : L.Placed) (delegate : L.Store) :
    Inv a ⟨Table.upsert Prod.fst m.prefs (entry a placed), delegate⟩ where
  distinct := hm.distinct.upsert _
  known e he := by
    rcases List.mem_cons.mp he with rfl | hmem
    · exact Or.inr ⟨placed, rfl⟩
    · exact hm.known e (Table.mem_deleteKey.mp hmem).1
  enrolled := by
    obtain ⟨keyPair, hmem⟩ := hm.enrolled
    refine ⟨keyPair, List.mem_cons_of_mem _ (Table.mem_deleteKey.mpr ⟨hmem, ?_⟩)⟩
    intro heq
    exact not_isSetting_key placed.place (Or.inl heq.symm)

lemma Synced.put (ha : a.Correct) (hL : L.Correct) (hm : Synced a m) (placed : L.Placed) :
    Synced a ⟨Table.upsert Prod.fst m.prefs (entry a placed), L.put m.delegate placed⟩ := by
  intro placed'
  rw [hL.holds_put]
  change entry a placed' ∈ entry a placed :: Table.deleteKey Prod.fst m.prefs (entry a placed).1 ↔ _
  rw [List.mem_cons, Table.mem_deleteKey, hm placed']
  by_cases hplace : placed.place = placed'.place
  · rw [if_pos hplace]
    have hkey : (entry a placed').1 = (entry a placed).1 := congrArg Place.key hplace.symm
    constructor
    · rintro (heq | ⟨-, hne⟩)
      · rw [entry_injective ha hL heq]
      · exact absurd hkey hne
    · intro heq
      rw [Option.some.inj heq]
      exact Or.inl rfl
  · rw [if_neg hplace]
    have hkey : (entry a placed').1 ≠ (entry a placed).1 := fun heq =>
      hplace (key_injective ha heq).symm
    constructor
    · rintro (heq | ⟨hheld, -⟩)
      · exact absurd (congrArg Prod.fst heq) hkey
      · exact hheld
    · intro hheld
      exact Or.inr ⟨hheld, hkey⟩

lemma startsWith_addressKey (start name : String) (address : SignalProtocolAddress) :
    startsWith (addressKey start address).toList (start ++ name ++ "::").toList =
      decide (StartsAlike name address.name) := by
  have hcolon : ':' ∉ decimal address.deviceId.toInt := notMem_decimal rfl (by decide) _
  have happend := append_prefix_append_iff (name.toList ++ [':']) (address.name.toList ++ [':']) hcolon
  rw [Bool.eq_iff_iff, decide_eq_true_iff, startsWith_iff, toList_addressKey, String.toList_append,
    String.toList_append, List.append_assoc, List.prefix_append_right_inj]
  unfold StartsAlike
  simpa using happend

/-- Which keys the deletion of the sessions of a name takes. -/
lemma startsWith_sessionStart (name : String) (place : Place) :
    startsWith place.key.toList (sessionStart ++ name ++ "::").toList =
      match place with
      | .session address => decide (StartsAlike name address.name)
      | _ => false := by
  cases place with
  | session address => exact startsWith_addressKey sessionStart name address
  | preKey id => simp [startsWith, List.isPrefixOf, Place.key, toList_preKeyKey, prekeyStart, sessionStart]
  | signedPreKey id => simp [startsWith, List.isPrefixOf, Place.key, toList_preKeyKey, signedPrekeyStart, sessionStart]
  | identity address =>
    simp [startsWith, List.isPrefixOf, Place.key, toList_addressKey, trustedIdentityStart, sessionStart]

/-- Which keys a burn takes besides. -/
lemma startsWith_trustedIdentityStart (name : String) (place : Place) :
    startsWith place.key.toList (trustedIdentityStart ++ name ++ "::").toList =
      match place with
      | .identity address => decide (StartsAlike name address.name)
      | _ => false := by
  cases place with
  | session address =>
    simp [startsWith, List.isPrefixOf, Place.key, toList_addressKey, trustedIdentityStart, sessionStart]
  | preKey id => simp [startsWith, List.isPrefixOf, Place.key, toList_preKeyKey, prekeyStart, trustedIdentityStart]
  | signedPreKey id =>
    simp [startsWith, List.isPrefixOf, Place.key, toList_preKeyKey, signedPrekeyStart, trustedIdentityStart]
  | identity address => exact startsWith_addressKey trustedIdentityStart name address

lemma startsAlike_refl (name : String) : StartsAlike name name := List.prefix_rfl

/-- No deletion takes the enrolment. -/
lemma keyIdentity_kept (name : String) :
    startsWith keyIdentity.toList (sessionStart ++ name ++ "::").toList = false ∧
      startsWith keyIdentity.toList (trustedIdentityStart ++ name ++ "::").toList = false := by
  refine ⟨by simp [startsWith, List.isPrefixOf, keyIdentity, sessionStart], ?_⟩
  rw [← Bool.not_eq_true, startsWith_iff]
  intro hpre
  have hcolon : ':' ∈ keyIdentity.toList := hpre.subset (by simp)
  exact absurd hcolon (by decide)

end Operations

section Runs

variable {a : Platform} {L : Libsignal} {m : PersistentSignalStore L}

lemma inv_step (hL : L.Correct) (m : PersistentSignalStore L) (label : StoreLabel L) (hm : Inv a m) :
    Inv a (m.step a label) := by
  have hremove : ∀ (place : Place) {delegate : L.Store}, (∀ place', L.holds delegate place' =
      if place' = place then none else L.holds m.delegate place') →
      Inv a ⟨m.prefs.remove place.key, delegate⟩ := by
    intro place delegate hholds
    apply hm.deletes (deletes_remove hholds)
    simp only [decide_eq_false_iff_not]
    exact fun heq => not_isSetting_key place (Or.inl heq.symm)
  cases label with
  | storePreKey id record => exact hm.put (.preKey id record) _
  | removePreKey id => exact hremove (.preKey id) (hL.holds_removePreKey m.delegate id)
  | storeSignedPreKey id record => exact hm.put (.signedPreKey id record) _
  | removeSignedPreKey id =>
    exact hremove (.signedPreKey id) (hL.holds_removeSignedPreKey m.delegate id)
  | storeSession address record => exact hm.put (.session address record) _
  | deleteSession address =>
    exact hremove (.session address) (hL.holds_deleteSession m.delegate address)
  | deleteAllSessions name =>
    exact hm.deletes (deletes_deleteAllSessions hL name) (keyIdentity_kept name).1
  | saveIdentity address key => exact hm.put (.identity address key) _
  | burnConversation name =>
    apply hm.deletes (deletes_burnConversation hL name)
    rw [(keyIdentity_kept name).1, (keyIdentity_kept name).2]
    rfl

lemma synced_remove (ha : a.Correct) (hm : Synced a m) {place : Place} {delegate : L.Store}
    (hholds : ∀ place', L.holds delegate place' =
      if place' = place then none else L.holds m.delegate place') :
    Synced a ⟨m.prefs.remove place.key, delegate⟩ := by
  rw [(deletes_remove hholds).synced_iff hm]
  intro place' _
  exact decide_eq_decide.mpr (key_injective ha).eq_iff

lemma synced_deleteAllSessions_iff (hL : L.Correct) (hm : Synced a m) (name : String) :
    Synced a (m.deleteAllSessions name) ↔
      ∀ address, L.session m.delegate address ≠ none → StartsAlike name address.name →
        address.name = name := by
  rw [(deletes_deleteAllSessions hL name).synced_iff hm]
  constructor
  · intro h address hheld halike
    have hsame := h (.session address) (by simpa [Libsignal.holds] using hheld)
    rw [startsWith_sessionStart] at hsame
    simpa [Place.isSessionOf, halike] using hsame
  · intro h place hheld
    rw [startsWith_sessionStart]
    cases place with
    | session address =>
      rw [Place.isSessionOf, decide_eq_decide]
      refine ⟨h address (by simpa [Libsignal.holds] using hheld), ?_⟩
      rintro rfl
      exact startsAlike_refl _
    | preKey id => rfl
    | signedPreKey id => rfl
    | identity address => rfl

lemma synced_burnConversation_iff (hL : L.Correct) (hm : Synced a m) (name : String) :
    Synced a (m.burnConversation name) ↔
      (∀ address, L.session m.delegate address ≠ none → StartsAlike name address.name →
        address.name = name) ∧
      ∀ address, L.identity m.delegate address ≠ none → ¬StartsAlike name address.name := by
  rw [← synced_deleteAllSessions_iff hL hm, (deletes_deleteAllSessions hL name).synced_iff hm,
    (deletes_burnConversation hL name).synced_iff hm]
  constructor
  · intro h
    constructor
    · intro place hheld
      have hsame := h place hheld
      rw [startsWith_trustedIdentityStart] at hsame
      cases place with
      | identity address => exact startsWith_sessionStart name _
      | session address => rwa [Bool.or_false] at hsame
      | preKey id => rwa [Bool.or_false] at hsame
      | signedPreKey id => rwa [Bool.or_false] at hsame
    · intro address hheld
      have hsame := h (.identity address) (by simpa [Libsignal.holds] using hheld)
      rw [startsWith_sessionStart, startsWith_trustedIdentityStart] at hsame
      simpa [Place.isSessionOf] using hsame
  · rintro ⟨hsession, hidentity⟩ place hheld
    rw [hsession place hheld, startsWith_trustedIdentityStart]
    cases place with
    | identity address =>
      have hnot := hidentity address (by simpa [Libsignal.holds] using hheld)
      simp [Place.isSessionOf, hnot]
    | session address => exact Bool.or_false _
    | preKey id => exact Bool.or_false _
    | signedPreKey id => exact Bool.or_false _

lemma synced_step_iff (ha : a.Correct) (hL : L.Correct) (hm : Synced a m) (label : StoreLabel L) :
    Synced a (m.step a label) ↔ m.Separate label := by
  cases label with
  | storePreKey id record => exact iff_of_true (hm.put ha hL (.preKey id record)) trivial
  | removePreKey id =>
    exact iff_of_true (synced_remove ha hm (hL.holds_removePreKey m.delegate id)) trivial
  | storeSignedPreKey id record =>
    exact iff_of_true (hm.put ha hL (.signedPreKey id record)) trivial
  | removeSignedPreKey id =>
    exact iff_of_true (synced_remove ha hm (hL.holds_removeSignedPreKey m.delegate id)) trivial
  | storeSession address record =>
    exact iff_of_true (hm.put ha hL (.session address record)) trivial
  | deleteSession address =>
    exact iff_of_true (synced_remove ha hm (hL.holds_deleteSession m.delegate address)) trivial
  | deleteAllSessions name => exact synced_deleteAllSessions_iff hL hm name
  | saveIdentity address key => exact iff_of_true (hm.put ha hL (.identity address key)) trivial
  | burnConversation name => exact synced_burnConversation_iff hL hm name

/-- A key whose place holds nothing is on no entry. -/
lemma getString_eq_none (hm : Inv a m) (hsynced : Synced a m) (ha : a.Correct) {place : Place}
    (h : L.holds m.delegate place = none) : m.prefs.getString place.key = none := by
  have hfind : m.prefs.find? (fun e => e.1 = place.key) = none := by
    rw [List.find?_eq_none]
    intro e he heq
    have hkey : e.1 = place.key := of_decide_eq_true heq
    obtain hsetting | ⟨placed, rfl⟩ := hm.known e he
    · exact not_isSetting_key place (hkey ▸ hsetting)
    · obtain rfl : placed.place = place := key_injective ha hkey
      rw [(hsynced placed).mp he] at h
      cases h
  unfold Prefs.getString
  rw [hfind]

/-- A deletion that keeps disk and memory together leaves the places it does not drop. -/
lemma Deletes.kept {m' : PersistentSignalStore L} {gone : String → Bool} {dropped : Place → Bool}
    (h : Deletes m m' gone dropped) (ha : a.Correct) (hm : Inv a m) (hm' : Inv a m')
    (hsynced : Synced a m) (hsynced' : Synced a m') {place : Place} (hplace : dropped place = false) :
    m'.prefs.getString place.key = m.prefs.getString place.key ∧
      L.holds m'.delegate place = L.holds m.delegate place := by
  have hholds : L.holds m'.delegate place = L.holds m.delegate place := by
    rw [h.holds, hplace]
    rfl
  refine ⟨?_, hholds⟩
  cases hheld : L.holds m.delegate place with
  | none => rw [getString_eq_none hm hsynced ha hheld,
      getString_eq_none hm' hsynced' ha (hholds.trans hheld)]
  | some placed =>
    apply h.getString
    rw [(h.synced_iff hsynced).mp hsynced' place (by simp [hheld]), hplace]

lemma othersKept_of_synced (ha : a.Correct) (hL : L.Correct) (hm : Inv a m) (hsynced : Synced a m)
    {label : StoreLabel L} (hsynced' : Synced a (m.step a label)) : OthersKept a m label := by
  intro name hname place hplace
  have hinv := inv_step hL m label hm
  have hdropped : Place.isSessionOf name place = false := by
    cases place with
    | session address => simpa [Place.isSessionOf, Place.name] using hplace
    | preKey id => rfl
    | signedPreKey id => rfl
    | identity address => rfl
  cases label with
  | deleteAllSessions name' =>
    obtain rfl : name' = name := Option.some.inj hname
    exact (deletes_deleteAllSessions hL name').kept ha hm hinv hsynced hsynced' hdropped
  | burnConversation name' =>
    obtain rfl : name' = name := Option.some.inj hname
    exact (deletes_burnConversation hL name').kept ha hm hinv hsynced hsynced' hdropped
  | storePreKey | removePreKey | storeSignedPreKey | removeSignedPreKey | storeSession
  | deleteSession | saveIdentity => cases hname

lemma isSetting_of_mem_create (keyPair : L.IdentityKeyPair) (registrationId : Int32)
    (localUserId : String) {e : String × PrefValue}
    (he : e ∈ (create a L keyPair registrationId localUserId).prefs) : IsSetting e.1 := by
  simp only [create, Prefs.putString, Prefs.putInt, Table.upsert, List.mem_cons,
    Table.mem_deleteKey] at he
  obtain rfl | ⟨rfl | ⟨rfl | ⟨hnil, -⟩, -⟩, -⟩ := he
  · exact Or.inr (Or.inr rfl)
  · exact Or.inr (Or.inl rfl)
  · exact Or.inl rfl
  · cases hnil

lemma inv_create (keyPair : L.IdentityKeyPair) (registrationId : Int32) (localUserId : String) :
    Inv a (create a L keyPair registrationId localUserId) where
  distinct := by
    have hnil : Table.KeysDistinct Prod.fst ([] : Prefs) := List.nodup_nil
    exact ((hnil.upsert _).upsert _).upsert _
  known e he := Or.inl (isSetting_of_mem_create keyPair registrationId localUserId he)
  enrolled := by
    refine ⟨keyPair, ?_⟩
    simp only [create, Prefs.putString, Prefs.putInt, Table.upsert, List.mem_cons,
      Table.mem_deleteKey]
    exact Or.inr ⟨Or.inr ⟨Or.inl trivial, by decide⟩, by decide⟩

lemma synced_create (hL : L.Correct) (keyPair : L.IdentityKeyPair) (registrationId : Int32)
    (localUserId : String) : Synced a (create a L keyPair registrationId localUserId) := by
  intro placed
  constructor
  · intro hmem
    exact absurd (isSetting_of_mem_create keyPair registrationId localUserId hmem)
      (not_isSetting_key placed.place)
  · intro hheld
    rw [create, hL.holds_inMemory] at hheld
    cases hheld

/-- Disk and memory of a store agree in every state of a run, and the sessions of one name
are deleted apart from the records of other names, exactly when no deletion meets a name
whose keys start alike and no burn a trusted identity. -/
theorem everyState_mirrors_iff (ha : a.Correct) (hL : L.Correct) (keyPair : L.IdentityKeyPair)
    (registrationId : Int32) (localUserId : String) (labels : List (StoreLabel L)) :
    let m := create a L keyPair registrationId localUserId
    EveryState (step a) (Mirrors a) m labels ∧ EveryStep (step a) (OthersKept a) m labels ↔
      EveryStep (step a) Separate m labels := by
  intro m
  have hm : Inv a m := inv_create keyPair registrationId localUserId
  have hmirrors : EveryState (step a) (Mirrors a) m labels ↔ EveryStep (step a) Separate m labels := by
    refine everyState_iff_everyStep (inv_step hL) ?_ hm ?_ labels
    · intro m label hm hgood
      rw [mirrors_iff ha hL (inv_step hL m label hm)]
      exact synced_step_iff ha hL ((mirrors_iff ha hL hm).mp hgood) label
    · exact (mirrors_iff ha hL hm).mpr (synced_create hL keyPair registrationId localUserId)
  rw [hmirrors]
  constructor
  · rintro ⟨hseparate, -⟩
    exact hseparate
  · intro hseparate
    refine ⟨hseparate, ?_⟩
    have hstates := (everyState_of_step (inv_step hL) hm labels).and (hmirrors.mpr hseparate)
    refine (hstates.everyStep.and hseparate).mono ?_
    rintro m label ⟨⟨hm, hgood⟩, hsep⟩
    have hsynced := (mirrors_iff ha hL hm).mp hgood
    exact othersKept_of_synced ha hL hm hsynced ((synced_step_iff ha hL hsynced label).mpr hsep)

end Runs

section MapStore

/-- Base64 with the standard alphabet, and the ten digits. -/
def asciiPlatform : Platform where
  encodeBase64 := Server.Directory.base64
  decodeBase64 := Server.unbase64
  digit c := if c.isDigit then some (c.toNat - '0'.toNat) else none

lemma correct_asciiPlatform : asciiPlatform.Correct where
  base64 := Server.unbase64_base64
  digits _ hc := if_pos hc

/-- The four maps of an in-memory store whose records are their bytes. -/
structure MapStore where
  preKeys : Int32 → Option Bytes := fun _ => none
  signedPreKeys : Int32 → Option Bytes := fun _ => none
  sessions : SignalProtocolAddress → Option Bytes := fun _ => none
  identities : SignalProtocolAddress → Option Bytes := fun _ => none

def bytesCodec : RecordCodec Bytes := ⟨id, some⟩

def mapLibsignal : Libsignal where
  IdentityKeyPair := Bytes
  PreKeyRecord := Bytes
  SignedPreKeyRecord := Bytes
  SessionRecord := Bytes
  IdentityKey := Bytes
  identityKeyPair := bytesCodec
  preKeyRecord := bytesCodec
  signedPreKeyRecord := bytesCodec
  sessionRecord := bytesCodec
  identityKey := bytesCodec
  Store := MapStore
  inMemory _ _ := {}
  storePreKey store id record := { store with preKeys := Function.update store.preKeys id (some record) }
  removePreKey store id := { store with preKeys := Function.update store.preKeys id none }
  storeSignedPreKey store id record :=
    { store with signedPreKeys := Function.update store.signedPreKeys id (some record) }
  removeSignedPreKey store id :=
    { store with signedPreKeys := Function.update store.signedPreKeys id none }
  storeSession store address record :=
    { store with sessions := Function.update store.sessions address (some record) }
  deleteSession store address :=
    { store with sessions := Function.update store.sessions address none }
  deleteAllSessions store name :=
    { store with sessions := fun address =>
        if address.name = name then none else store.sessions address }
  saveIdentity store address key :=
    ({ store with identities := Function.update store.identities address (some key) },
      store.identities address ≠ some key)
  preKey store := store.preKeys
  signedPreKey store := store.signedPreKeys
  session store := store.sessions
  identity store := store.identities

lemma map_update {κ ρ γ : Type} [DecidableEq κ] (f : κ → Option ρ) (k : κ) (r : ρ) (k' : κ)
    (g : κ → ρ → γ) : (Function.update f k (some r) k').map (g k') =
      if k = k' then some (g k r) else (f k').map (g k') := by
  by_cases h : k = k'
  · subst h
    simp
  · rw [if_neg h, Function.update_of_ne (Ne.symm h)]

lemma correct_mapLibsignal : mapLibsignal.Correct where
  identityKeyPair _ := rfl
  preKeyRecord _ := rfl
  signedPreKeyRecord _ := rfl
  sessionRecord _ := rfl
  identityKey _ := rfl
  holds_inMemory _ _ place := by cases place <;> rfl
  holds_put store placed place := by
    cases placed <;> cases place <;>
      simp only [Libsignal.holds, Libsignal.put, Libsignal.Placed.place, mapLibsignal,
        Place.preKey.injEq, Place.signedPreKey.injEq, Place.session.injEq, Place.identity.injEq,
        reduceCtorEq, if_false]
    case preKey.preKey => exact map_update _ _ _ _ Libsignal.Placed.preKey
    case signedPreKey.signedPreKey => exact map_update _ _ _ _ Libsignal.Placed.signedPreKey
    case session.session => exact map_update _ _ _ _ Libsignal.Placed.session
    case identity.identity => exact map_update _ _ _ _ Libsignal.Placed.identity
  holds_removePreKey store id place := by
    cases place <;> simp [Libsignal.holds, mapLibsignal, Function.update_apply]
    split <;> rfl
  holds_removeSignedPreKey store id place := by
    cases place <;> simp [Libsignal.holds, mapLibsignal, Function.update_apply]
    split <;> rfl
  holds_deleteSession store address place := by
    cases place <;> simp [Libsignal.holds, mapLibsignal, Function.update_apply]
    split <;> rfl
  holds_deleteAllSessions store name place := by
    cases place <;> simp [Libsignal.holds, mapLibsignal, Place.isSessionOf]
    split <;> rfl

/-- The identity of a peer is saved and the conversation with the peer burned. -/
def burnPeer : List (StoreLabel mapLibsignal) :=
  [.saveIdentity ⟨"bob", 1⟩ [5, 1], .burnConversation "bob"]

def enrolled : PersistentSignalStore mapLibsignal := create asciiPlatform mapLibsignal [5, 9] 7 "alice"

theorem not_everyState_mirrors_burnPeer :
    ¬(EveryState (step asciiPlatform) (Mirrors asciiPlatform) enrolled burnPeer ∧
      EveryStep (step asciiPlatform) (OthersKept asciiPlatform) enrolled burnPeer) := by
  rintro ⟨hmirrors, -⟩
  have hstart : Inv asciiPlatform enrolled := inv_create _ _ _
  have hinv : Inv asciiPlatform (run (step asciiPlatform) enrolled burnPeer) :=
    run_invariant (inv_step correct_mapLibsignal) hstart burnPeer
  have hsynced := (mirrors_iff correct_asciiPlatform correct_mapLibsignal hinv).mp hmirrors.last
  have hentry := (hsynced (.identity ⟨"bob", 1⟩ [5, 1])).mpr rfl
  exact absurd hentry (by decide +kernel)

/-- A conversation is burned without an identity of its peer, and the sessions of another peer, who
has one, are deleted. -/
def burnOther : List (StoreLabel mapLibsignal) :=
  [.saveIdentity ⟨"bob", 1⟩ [5, 1], .storeSession ⟨"bob", 1⟩ [4], .storeSession ⟨"carol", 1⟩ [6],
    .burnConversation "carol", .deleteAllSessions "bob"]

theorem everyState_mirrors_iff_burnOther :
    EveryState (step asciiPlatform) (Mirrors asciiPlatform) enrolled burnOther ∧
      EveryStep (step asciiPlatform) (OthersKept asciiPlatform) enrolled burnOther := by
  have hburn : Separate (run (step asciiPlatform) enrolled (burnOther.take 3))
      (.burnConversation "carol") := by
    constructor
    · intro address hsession halike
      have hname : address = ⟨"carol", 1⟩ ∨ address = ⟨"bob", 1⟩ := by
        by_contra hnot
        rw [not_or] at hnot
        exact hsession ((Function.update_of_ne hnot.1 _ _).trans (Function.update_of_ne hnot.2 _ _))
      rcases hname with rfl | rfl
      · rfl
      · exact absurd halike (by decide)
    · intro address hidentity
      have hname : address = ⟨"bob", 1⟩ := by
        by_contra hnot
        exact hidentity (Function.update_of_ne hnot _ _)
      rw [hname]
      decide
  have hdelete : Separate (run (step asciiPlatform) enrolled (burnOther.take 4))
      (.deleteAllSessions "bob") := by
    intro address hsession halike
    have hname : address = ⟨"bob", 1⟩ := by
      by_contra hnot
      apply hsession
      change (if address.name = "carol" then none else _) = none
      split
      · rfl
      · rename_i hcarol
        have hcarol' : address ≠ ⟨"carol", 1⟩ := fun heq => hcarol (heq ▸ rfl)
        exact (Function.update_of_ne hcarol' _ _).trans (Function.update_of_ne hnot _ _)
    rw [hname]
  exact (everyState_mirrors_iff correct_asciiPlatform correct_mapLibsignal [5, 9] 7 "alice"
    burnOther).mpr ⟨trivial, trivial, trivial, hburn, hdelete, trivial⟩

end MapStore

end PersistentSignalStore

end Parda.Android
