import Mathlib.Data.List.DropRight
import Parda.Lib.Url
import Parda.Lib.Utf8
import Parda.Protocol.Envelope

/-!
# The key file of a mix node

Model of `load_or_create_key_file` of `mixnode/src/identity.rs`, for a path that can be read and
written.
-/

namespace Parda.Mixnode

open Protocol

/-- `char::is_whitespace`, the Unicode property `White_Space`. -/
def isWhitespace (c : Char) : Bool :=
  let n := c.toNat
  (0x9 ≤ n && n ≤ 0xD) || n = 0x20 || n = 0x85 || n = 0xA0 || n = 0x1680 ||
    (0x2000 ≤ n && n ≤ 0x200A) || n = 0x2028 || n = 0x2029 || n = 0x202F || n = 0x205F || n = 0x3000

/-- `str::trim`. -/
def trim (s : String) : String :=
  String.ofList ((s.toList.dropWhile isWhitespace).rdropWhile isWhitespace)

/-- The digits of a `u8` in base 16, after those that make `value`. -/
def fromDigits16 : UInt8 → Bytes → Option UInt8
  | value, [] => some value
  | value, c :: rest =>
    match Url.hexValue c with
    | none => none
    | some digit =>
      if value.toNat * 16 + digit.toNat ≤ 255 then fromDigits16 (value * 16 + digit) rest else none

/-- `u8::from_str_radix(_, 16)`, which takes a leading `+`. -/
def fromStrRadix16 : Bytes → Option UInt8
  | [] => none
  | [0x2B] => none
  | [0x2D] => none
  | 0x2B :: rest => fromDigits16 0 rest
  | src => fromDigits16 0 src

/-- The panics on a key file. -/
inductive KeyFilePanic where
  /-- A slice of a `str` that ends inside a character. -/
  | charBoundary (index : ℕ)
  | message (text : String)
deriving DecidableEq

/-- A character starts with this byte, or the string ends here. -/
def startsChar : Bytes → Bool
  | [] => true
  | b :: _ => b < 0x80 || 0xC0 ≤ b

/-- The slices of two bytes from `index` on, as far as the first that is no number. -/
def hexPairs (index : ℕ) : Bytes → Except KeyFilePanic (Option Bytes)
  | a :: b :: rest =>
    if startsChar rest then
      match fromStrRadix16 [a, b] with
      | none => .ok none
      | some value => (hexPairs (index + 2) rest).map (Option.map (value :: ·))
    else .error (.charBoundary (index + 2))
  | _ => .ok (some [])

def hexDecode (s : String) : Except KeyFilePanic (Option Bytes) :=
  let bytes := Utf8.encode (trim s)
  if bytes.length % 2 ≠ 0 then .ok none else hexPairs 0 bytes

/-- A digit of `{:02x}`. -/
def hexLower (n : ℕ) : Char := if n < 10 then Char.ofNat (0x30 + n) else Char.ofNat (0x57 + n)

def hexText (key : Bytes32) : String :=
  String.ofList (key.toList.flatMap fun b => [hexLower (b.toNat / 16), hexLower (b.toNat % 16)])

/-- What `write_key_file` writes. -/
def keyFileContent (secret : Bytes32) : Bytes := Utf8.encode (hexText secret)

def readKeyFile (path : String) (content : Bytes) : Except KeyFilePanic Bytes32 :=
  match Utf8.decode content with
  | none => .error (.message
      s!"failed to read mix node key file {path}: stream did not contain valid UTF-8")
  | some contents =>
    match hexDecode contents with
    | .error panic => .error panic
    | .ok none => .error (.message
        s!"mix node key file {path} is not 64 hex characters — refusing to overwrite it; repair or remove it explicitly")
    | .ok (some bytes) =>
      if h : bytes.length = 32 then .ok ⟨bytes, h⟩
      else .error (.message
        s!"mix node key file {path} must decode to exactly 32 bytes — refusing to overwrite it; repair or remove it explicitly")

/-- The key or the panic, with the file that is there afterwards. The keypair is generated when the
file is missing. -/
def loadOrCreateKeyFile (path : String) (file : Option Bytes) (generated : Bytes32) :
    Except KeyFilePanic Bytes32 × Option Bytes :=
  match file with
  | some content => (readKeyFile path content, some content)
  | none => (.ok generated, some (keyFileContent generated))

/-! ### The grammars -/

/-- The content without the whitespace around it, unless it is not UTF-8. -/
def trimmed (content : Bytes) : Option Bytes :=
  (Utf8.decode content).map fun contents => Utf8.encode (trim contents)

def isHexDigit (b : UInt8) : Bool := (Url.hexValue b).isSome

/-- The bytes that pairs of hexadecimal digits stand for. -/
def decodeHex : Bytes → Option Bytes
  | [] => some []
  | a :: b :: rest =>
    match Url.hexValue a, Url.hexValue b, decodeHex rest with
    | some hi, some lo, some bytes => some ((hi * 16 + lo) :: bytes)
    | _, _, _ => none
  | [_] => none

/-- An existing file is a key exactly when it has 64 hexadecimal digits, and stays as it is. -/
structure OneGrammar (path : String) (content : Bytes) (generated : Bytes32) : Prop where
  accepts_iff : (∃ key, (loadOrCreateKeyFile path (some content) generated).1 = .ok key) ↔
    ∃ text ∈ trimmed content, text.length = 64 ∧ ∀ b ∈ text, isHexDigit b = true
  decodes : ∀ key, (loadOrCreateKeyFile path (some content) generated).1 = .ok key →
    ∃ text ∈ trimmed content, decodeHex text = some key.toList
  unchanged : (loadOrCreateKeyFile path (some content) generated).2 = some content

/-- What is written for a key is read as that key, and a missing file is so written. -/
structure Persists (path : String) (generated : Bytes32) : Prop where
  reads_back : ∀ key, (loadOrCreateKeyFile path (some (keyFileContent key)) generated).1 = .ok key
  created : ∃ content, loadOrCreateKeyFile path none generated = (.ok generated, some content) ∧
    ∃ text ∈ trimmed content, decodeHex text = some generated.toList

/-- Groups of two, a hexadecimal digit or `+` and a hexadecimal digit. -/
def SignedGroups : Bytes → Prop
  | [] => True
  | a :: b :: rest => (a = 0x2B ∨ isHexDigit a = true) ∧ isHexDigit b = true ∧ SignedGroups rest
  | [_] => False

/-- 32 such groups, and a `+` in one of them. -/
def SignedKey (content : Bytes) : Prop :=
  ∃ text ∈ trimmed content, text.length = 64 ∧ SignedGroups text ∧ 0x2B ∈ text

section Groups

variable {a b v : UInt8}

lemma hexValue_lt {d : UInt8} (h : Url.hexValue b = some d) : d.toNat < 16 := by
  have hall := Url.forall_byte (P := fun b => ∀ d ∈ Url.hexValue b, d.toNat < 16)
    (by decide +kernel) b
  exact hall d h

/-- A pair that has no `+` at the front is read as digits. -/
lemma fromStrRadix16_of_ne (hne : a ≠ 0x2B) : fromStrRadix16 [a, b] = fromDigits16 0 [a, b] := by
  apply fromStrRadix16.eq_5
  · intro heq
    cases heq
  · intro heq
    cases heq
  · intro heq
    cases heq
  · intro rest heq
    cases heq
    exact hne rfl

lemma fromStrRadix16_digits {hi lo : UInt8} (ha : Url.hexValue a = some hi)
    (hb : Url.hexValue b = some lo) : fromStrRadix16 [a, b] = some (hi * 16 + lo) := by
  have hne : a ≠ 0x2B := by
    rintro rfl
    cases ha
  have hhi := hexValue_lt ha
  have hlo := hexValue_lt hb
  have hfirst : (0 : UInt8).toNat * 16 + hi.toNat ≤ 255 := by
    change 0 * 16 + hi.toNat ≤ 255
    omega
  have hzero : (0 : UInt8) * 16 + hi = hi := by rw [UInt8.zero_mul, UInt8.zero_add]
  have hsecond : hi.toNat * 16 + lo.toNat ≤ 255 := by omega
  rw [fromStrRadix16_of_ne hne]
  simp only [fromDigits16, ha, hb, hzero]
  rw [if_pos hfirst, if_pos hsecond]

lemma fromStrRadix16_plus (b : UInt8) : fromStrRadix16 [0x2B, b] = Url.hexValue b := by
  apply Url.forall_byte (P := fun b => fromStrRadix16 [0x2B, b] = Url.hexValue b)
  decide +kernel

/-- A pair is a number when both are digits, or when a `+` stands before one. -/
lemma fromStrRadix16_pair (h : fromStrRadix16 [a, b] = some v) :
    (∃ hi lo, Url.hexValue a = some hi ∧ Url.hexValue b = some lo ∧ v = hi * 16 + lo) ∨
      (a = 0x2B ∧ Url.hexValue b = some v) := by
  by_cases hplus : a = 0x2B
  · subst hplus
    rw [fromStrRadix16_plus] at h
    exact Or.inr ⟨rfl, h⟩
  · have hdigits : fromDigits16 0 [a, b] = some v := by
      rw [← fromStrRadix16_of_ne hplus]
      exact h
    cases ha : Url.hexValue a with
    | none => simp [fromDigits16, ha] at hdigits
    | some hi =>
      cases hb : Url.hexValue b with
      | none =>
        simp only [fromDigits16, ha, hb] at hdigits
        split at hdigits <;> cases hdigits
      | some lo =>
        rw [fromStrRadix16_digits ha hb] at h
        exact Or.inl ⟨hi, lo, rfl, rfl, (Option.some.inj h).symm⟩

/-- The numbers that the groups of two stand for. -/
def decodeGroups : Bytes → Option Bytes
  | [] => some []
  | a :: b :: rest =>
    match fromStrRadix16 [a, b], decodeGroups rest with
    | some v, some bytes => some (v :: bytes)
    | _, _ => none
  | [_] => none

lemma decodeGroups_cons {rest values : Bytes} :
    decodeGroups (a :: b :: rest) = some values ↔
      ∃ v bytes, fromStrRadix16 [a, b] = some v ∧ decodeGroups rest = some bytes ∧
        values = v :: bytes := by
  rw [decodeGroups]
  cases fromStrRadix16 [a, b] with
  | none => simp
  | some v =>
    cases decodeGroups rest with
    | none => simp
    | some bytes => simp [eq_comm]

/-- A group of two starts with an ASCII byte. -/
lemma startsChar_of_decodeGroups {text values : Bytes} (h : decodeGroups text = some values) :
    startsChar text = true := by
  match text with
  | [] => rfl
  | [_] => cases h
  | a :: b :: rest =>
    obtain ⟨v, bytes, hpair, -, -⟩ := decodeGroups_cons.mp h
    rcases fromStrRadix16_pair hpair with ⟨hi, -, ha, -, -⟩ | ⟨rfl, -⟩
    · have hall := Url.forall_byte
        (P := fun a => (Url.hexValue a).isSome = true → startsChar [a] = true) (by decide +kernel) a
      exact hall (by rw [ha]; rfl)
    · rfl

/-- The slices are read as the groups are. -/
lemma hexPairs_eq_some_iff (index : ℕ) (text : Bytes) (heven : text.length % 2 = 0) (values : Bytes) :
    hexPairs index text = .ok (some values) ↔ decodeGroups text = some values := by
  match text with
  | [] => simp [hexPairs, decodeGroups]
  | [_] => simp at heven
  | a :: b :: rest =>
    have hrest : rest.length % 2 = 0 := by
      simp only [List.length_cons] at heven
      omega
    have ih := hexPairs_eq_some_iff (index + 2) rest hrest
    rw [decodeGroups_cons, hexPairs]
    constructor
    · intro h
      split at h
      · cases hpair : fromStrRadix16 [a, b] with
        | none =>
          rw [hpair] at h
          cases h
        | some v =>
          rw [hpair] at h
          cases htail : hexPairs (index + 2) rest with
          | error panic =>
            rw [htail] at h
            cases h
          | ok result =>
            rw [htail] at h
            cases result with
            | none => cases h
            | some bytes =>
              cases h
              exact ⟨v, bytes, rfl, (ih bytes).mp htail, rfl⟩
      · cases h
    · rintro ⟨v, bytes, hpair, hbytes, rfl⟩
      rw [if_pos (startsChar_of_decodeGroups hbytes), hpair, (ih bytes).mpr hbytes]
      rfl

lemma length_of_decodeGroups {text values : Bytes} (h : decodeGroups text = some values) :
    text.length = 2 * values.length := by
  match text with
  | [] =>
    cases h
    rfl
  | [_] => cases h
  | a :: b :: rest =>
    obtain ⟨v, bytes, -, hbytes, rfl⟩ := decodeGroups_cons.mp h
    have ih := length_of_decodeGroups hbytes
    simp only [List.length_cons]
    omega

lemma isHexDigit_iff : isHexDigit b = true ↔ ∃ d, Url.hexValue b = some d :=
  Option.isSome_iff_exists

/-- The groups that are read are those of the grammar. -/
lemma exists_decodeGroups_iff {text : Bytes} :
    (∃ values, decodeGroups text = some values) ↔ SignedGroups text := by
  match text with
  | [] => exact iff_of_true ⟨[], rfl⟩ trivial
  | [_] => exact iff_of_false (fun ⟨_, h⟩ => by cases h) id
  | a :: b :: rest =>
    have ih : (∃ values, decodeGroups rest = some values) ↔ SignedGroups rest :=
      exists_decodeGroups_iff
    rw [SignedGroups, ← ih]
    constructor
    · rintro ⟨values, h⟩
      obtain ⟨v, bytes, hpair, hbytes, -⟩ := decodeGroups_cons.mp h
      rcases fromStrRadix16_pair hpair with ⟨hi, lo, ha, hb, -⟩ | ⟨ha, hb⟩
      · exact ⟨Or.inr (isHexDigit_iff.mpr ⟨hi, ha⟩), isHexDigit_iff.mpr ⟨lo, hb⟩, bytes, hbytes⟩
      · exact ⟨Or.inl ha, isHexDigit_iff.mpr ⟨v, hb⟩, bytes, hbytes⟩
    · rintro ⟨hfirst, hsecond, bytes, hbytes⟩
      obtain ⟨lo, hb⟩ := isHexDigit_iff.mp hsecond
      rcases hfirst with rfl | hfirst
      · exact ⟨lo :: bytes, decodeGroups_cons.mpr ⟨lo, bytes, (fromStrRadix16_plus b).trans hb, hbytes, rfl⟩⟩
      · obtain ⟨hi, ha⟩ := isHexDigit_iff.mp hfirst
        exact ⟨(hi * 16 + lo) :: bytes,
          decodeGroups_cons.mpr ⟨hi * 16 + lo, bytes, fromStrRadix16_digits ha hb, hbytes, rfl⟩⟩

/-- Without a `+`, the groups are pairs of digits, and stand for what these do. -/
lemma decodeHex_of_decodeGroups {text values : Bytes} (h : decodeGroups text = some values)
    (hplus : 0x2B ∉ text) :
    (∀ b ∈ text, isHexDigit b = true) ∧ decodeHex text = some values := by
  match text with
  | [] =>
    cases h
    exact ⟨by simp, rfl⟩
  | [_] => cases h
  | a :: b :: rest =>
    obtain ⟨v, bytes, hpair, hbytes, rfl⟩ := decodeGroups_cons.mp h
    rw [List.mem_cons, List.mem_cons, not_or, not_or] at hplus
    obtain ⟨hdigits, hdecoded⟩ := decodeHex_of_decodeGroups hbytes hplus.2.2
    rcases fromStrRadix16_pair hpair with ⟨hi, lo, ha, hb, rfl⟩ | ⟨rfl, -⟩
    · refine ⟨?_, ?_⟩
      · intro d hd
        rcases List.mem_cons.mp hd with rfl | hd
        · exact isHexDigit_iff.mpr ⟨hi, ha⟩
        · rcases List.mem_cons.mp hd with rfl | hd
          · exact isHexDigit_iff.mpr ⟨lo, hb⟩
          · exact hdigits d hd
      · rw [decodeHex, ha, hb, hdecoded]
    · exact absurd rfl hplus.1

lemma signedGroups_of_digits {text : Bytes} (heven : text.length % 2 = 0)
    (h : ∀ b ∈ text, isHexDigit b = true) : SignedGroups text := by
  match text with
  | [] => trivial
  | [_] => simp at heven
  | a :: b :: rest =>
    rw [List.forall_mem_cons, List.forall_mem_cons] at h
    have hrest : rest.length % 2 = 0 := by
      simp only [List.length_cons] at heven
      omega
    exact ⟨Or.inr h.1, h.2.1, signedGroups_of_digits hrest h.2.2⟩

end Groups

section Files

variable {content : Bytes} {key : Bytes32}

/-- A file is read as a key when its content is groups that stand for the key. -/
lemma readKeyFile_eq_ok_iff (path : String) :
    readKeyFile path content = .ok key ↔
      ∃ text ∈ trimmed content, decodeGroups text = some key.toList := by
  unfold readKeyFile trimmed
  cases hutf8 : Utf8.decode content with
  | none => simp
  | some contents =>
    simp only [Option.map_some, Option.mem_some_iff, exists_eq_left']
    by_cases hodd : (Utf8.encode (trim contents)).length % 2 ≠ 0
    · have hnone : hexDecode contents = .ok none := if_pos hodd
      rw [hnone]
      refine iff_of_false (fun h => by cases h) ?_
      intro h
      have hlen := length_of_decodeGroups h
      omega
    · have heven : (Utf8.encode (trim contents)).length % 2 = 0 := not_not.mp hodd
      have hpairs : hexDecode contents = hexPairs 0 (Utf8.encode (trim contents)) := if_neg hodd
      have hgroups := hexPairs_eq_some_iff 0 _ heven
      rw [hpairs, ← hgroups]
      cases hread : hexPairs 0 (Utf8.encode (trim contents)) with
      | error panic => simp
      | ok result =>
        cases result with
        | none => simp
        | some bytes =>
          obtain ⟨keyBytes, hkey⟩ := key
          simp only [Except.ok.injEq, Option.some.injEq]
          constructor
          · intro h
            split at h
            · cases h
              rfl
            · cases h
          · intro h
            have hbytes : bytes = keyBytes := h
            subst hbytes
            rw [dif_pos hkey]

/-- The content of an existing file has one grammar unless it is a key with a `+` in it. -/
lemma oneGrammar_iff (path : String) (content : Bytes) (generated : Bytes32) :
    OneGrammar path content generated ↔ ¬SignedKey content := by
  have hread : ∀ key, (loadOrCreateKeyFile path (some content) generated).1 = .ok key ↔
      ∃ text ∈ trimmed content, decodeGroups text = some key.toList :=
    fun key => readKeyFile_eq_ok_iff path
  constructor
  · rintro h ⟨text, htext, hlen, hgroups, hplus⟩
    obtain ⟨values, hvalues⟩ := exists_decodeGroups_iff.mpr hgroups
    have hlength := length_of_decodeGroups hvalues
    have haccepted : ∃ key, (loadOrCreateKeyFile path (some content) generated).1 = .ok key :=
      ⟨⟨values, by omega⟩, (hread _).mpr ⟨text, htext, hvalues⟩⟩
    obtain ⟨text', htext', -, hdigits⟩ := h.accepts_iff.mp haccepted
    rw [Option.mem_def.mp htext] at htext'
    cases htext'
    exact absurd (hdigits 0x2B hplus) (by decide)
  · intro hsigned
    have hdigits : ∀ key text, text ∈ trimmed content → decodeGroups text = some key.toList →
        text.length = 64 ∧ (∀ b ∈ text, isHexDigit b = true) ∧
          decodeHex text = some (List.Vector.toList (n := 32) key) := by
      intro key text htext hvalues
      have hlen : text.length = 64 := by
        rw [length_of_decodeGroups hvalues, List.Vector.toList_length]
      have hplus : 0x2B ∉ text := fun hmem =>
        hsigned ⟨text, htext, hlen, exists_decodeGroups_iff.mp ⟨_, hvalues⟩, hmem⟩
      exact ⟨hlen, decodeHex_of_decodeGroups hvalues hplus⟩
    refine ⟨⟨?_, ?_⟩, ?_, rfl⟩
    · rintro ⟨key, hkey⟩
      obtain ⟨text, htext, hvalues⟩ := (hread key).mp hkey
      obtain ⟨hlen, hall, -⟩ := hdigits key text htext hvalues
      exact ⟨text, htext, hlen, hall⟩
    · rintro ⟨text, htext, hlen, hall⟩
      obtain ⟨values, hvalues⟩ :=
        exists_decodeGroups_iff.mpr (signedGroups_of_digits (by omega) hall)
      have hlength := length_of_decodeGroups hvalues
      exact ⟨⟨values, by omega⟩, (hread _).mpr ⟨text, htext, hvalues⟩⟩
    · intro key hkey
      obtain ⟨text, htext, hvalues⟩ := (hread key).mp hkey
      exact ⟨text, htext, (hdigits key text htext hvalues).2.2⟩

end Files

section Written

/-- What is known of a hexadecimal digit that is written. -/
lemma hexLower_spec {n : ℕ} (h : n < 16) :
    isWhitespace (hexLower n) = false ∧
      ∃ b, String.utf8EncodeChar (hexLower n) = [b] ∧ Url.hexValue b = some (UInt8.ofNat n) := by
  have hall : ∀ k : Fin 16, isWhitespace (hexLower k.val) = false ∧
      ∃ b, String.utf8EncodeChar (hexLower k.val) = [b] ∧
        Url.hexValue b = some (UInt8.ofNat k.val) := by
    intro k
    refine ⟨?_, (hexLower k.val).toNat.toUInt8, ?_, ?_⟩
    · revert k
      decide
    · revert k
      decide
    · revert k
      decide
  exact hall ⟨n, h⟩

lemma decodeHex_cons {a b hi lo : UInt8} {rest bytes : Bytes} (ha : Url.hexValue a = some hi)
    (hb : Url.hexValue b = some lo) (hbytes : decodeHex rest = some bytes) :
    decodeHex (a :: b :: rest) = some ((hi * 16 + lo) :: bytes) := by
  rw [decodeHex, ha, hb, hbytes]

/-- Pairs of digits are groups. -/
lemma decodeGroups_of_decodeHex {text values : Bytes} (h : decodeHex text = some values) :
    decodeGroups text = some values := by
  match text with
  | [] => exact h
  | [_] => exact h
  | a :: b :: rest =>
    rw [decodeHex] at h
    split at h
    · rename_i hi lo bytes ha hb hbytes
      rw [← Option.some.inj h]
      exact decodeGroups_cons.mpr
        ⟨hi * 16 + lo, bytes, fromStrRadix16_digits ha hb, decodeGroups_of_decodeHex hbytes, rfl⟩
    · cases h

/-- Nothing is trimmed from characters none of which is whitespace. -/
lemma trimmed_encode {chars : List Char} (h : ∀ c ∈ chars, isWhitespace c = false) :
    trimmed (Utf8.encode (String.ofList chars)) = some (chars.flatMap String.utf8EncodeChar) := by
  have htrim : trim (String.ofList chars) = String.ofList chars := by
    have hfront : chars.dropWhile isWhitespace = chars := by
      rw [List.dropWhile_eq_self_iff]
      intro hlen
      rw [h _ (List.getElem_mem hlen)]
      exact Bool.false_ne_true
    have hback : chars.rdropWhile isWhitespace = chars := by
      rw [List.rdropWhile_eq_self_iff]
      intro hne
      rw [h _ (List.getLast_mem hne)]
      exact Bool.false_ne_true
    unfold trim
    rw [String.toList_ofList, hfront, hback]
  unfold trimmed
  rw [Utf8.decode_encode, Option.map_some, htrim, Utf8.encode_eq_flatMap, String.toList_ofList]

lemma decodeHex_hexLower (bytes : Bytes) :
    decodeHex ((bytes.flatMap fun b => [hexLower (b.toNat / 16), hexLower (b.toNat % 16)]).flatMap
      String.utf8EncodeChar) = some bytes := by
  induction bytes with
  | nil => rfl
  | cons b bytes ih =>
    have hb := b.toNat_lt
    obtain ⟨-, hi, hhi, hhiValue⟩ := hexLower_spec (show b.toNat / 16 < 16 by omega)
    obtain ⟨-, lo, hlo, hloValue⟩ := hexLower_spec (show b.toNat % 16 < 16 by omega)
    have hvalue : UInt8.ofNat (b.toNat / 16) * 16 + UInt8.ofNat (b.toNat % 16) = b := by
      apply UInt8.toNat_inj.mp
      rw [UInt8.toNat_add, UInt8.toNat_mul, UInt8.toNat_ofNat', UInt8.toNat_ofNat']
      change (_ * 16 % 256 + _) % 256 = _
      omega
    rw [List.flatMap_cons, List.flatMap_append, List.flatMap_cons, List.flatMap_cons,
      List.flatMap_nil, hhi, hlo]
    exact (decodeHex_cons hhiValue hloValue ih).trans (by rw [hvalue])

/-- The content that is written for a key is its digits. -/
lemma exists_trimmed_keyFileContent (key : Bytes32) :
    ∃ text ∈ trimmed (keyFileContent key), decodeHex text = some key.toList := by
  refine ⟨_, trimmed_encode ?_, decodeHex_hexLower key.toList⟩
  intro c hc
  obtain ⟨b, -, hmem⟩ := List.mem_flatMap.mp hc
  have hb := b.toNat_lt
  rcases List.mem_cons.mp hmem with rfl | hmem
  · exact (hexLower_spec (by omega)).1
  · rw [List.mem_singleton.mp hmem]
    exact (hexLower_spec (by omega)).1

lemma persists (path : String) (generated : Bytes32) : Persists path generated where
  reads_back key := by
    obtain ⟨text, htext, hvalues⟩ := exists_trimmed_keyFileContent key
    exact (readKeyFile_eq_ok_iff path).mpr ⟨text, htext, decodeGroups_of_decodeHex hvalues⟩
  created := ⟨keyFileContent generated, rfl, exists_trimmed_keyFileContent generated⟩

end Written

/-- A key file has one grammar, except that the pairs of an existing one may start with a `+` in
place of a digit. -/
theorem keyFile_grammar (path : String) (generated : Bytes32) :
    Persists path generated ∧
      ∀ content, OneGrammar path content generated ↔ ¬SignedKey content :=
  ⟨persists path generated, fun content => oneGrammar_iff path content generated⟩

/-- A `+` and a digit, 32 times. -/
def plusChars : List Char := (List.replicate 32 ['+', 'f']).flatten

theorem not_oneGrammar_plus :
    (loadOrCreateKeyFile "node.key" (some (Utf8.encode (String.ofList plusChars)))
      (List.Vector.replicate 32 0)).1 = .ok (List.Vector.replicate 32 15) ∧
    ¬OneGrammar "node.key" (Utf8.encode (String.ofList plusChars)) (List.Vector.replicate 32 0) := by
  have hspace : ∀ c ∈ plusChars, isWhitespace c = false := by
    intro c hc
    obtain ⟨pair, hpair, hmem⟩ := List.mem_flatten.mp hc
    rw [List.eq_of_mem_replicate hpair, List.mem_pair] at hmem
    rcases hmem with rfl | rfl
    · decide
    · decide
  have htrimmed := trimmed_encode hspace
  constructor
  · exact (readKeyFile_eq_ok_iff "node.key").mpr ⟨_, htrimmed, by decide +kernel⟩
  · rw [oneGrammar_iff, not_not]
    refine ⟨_, htrimmed, by decide +kernel, ?_, by decide +kernel⟩
    exact exists_decodeGroups_iff.mp ⟨List.replicate 32 15, by decide +kernel⟩

end Parda.Mixnode
