import Parda.Lib.Sha256
import Parda.Lib.Text
import Parda.Protocol.Trust
import Parda.Server.Base64

/-!
# The safety number on Android

Model of `fingerprintDigits`, `compareUnsigned` and `hkdfSha256` of `SignalPlugin.kt`,
beside `Fingerprint::compute` and `digits`. A byte of a `ByteArray` reads as a signed
number, and a number is formatted with the digits of the device's locale.
-/

namespace Parda.Android

open Protocol

def byteToInt (b : UInt8) : Int32 := b.toInt8.toInt32

def byteToLong (b : UInt8) : Int64 := b.toInt8.toInt64

/-- The ten digits of a locale, from its zero on. -/
structure Locale where
  zeroDigit : Char
  valid : ∀ d < 10, (zeroDigit.toNat + d).isValidChar

namespace Locale

def digit (locale : Locale) (c : Char) : Char :=
  Char.ofNat (c.toNat - '0'.toNat + locale.zeroDigit.toNat)

/-- `"%05d".format`, of a value that is not negative. -/
def format05d (locale : Locale) (value : ℕ) : List Char :=
  List.leftpad 5 locale.zeroDigit ((Nat.toDigits 10 value).map locale.digit)

end Locale

/-- No difference overflows, of bytes or of sizes. -/
def compareUnsigned (a b : Bytes) : ℤ :=
  let differences : List Int32 :=
    (a.zip b).map (fun (x, y) => (byteToInt x &&& 0xFF) - (byteToInt y &&& 0xFF))
  match differences.find? (fun d => d ≠ 0) with
  | some d => d.toInt
  | none => a.length - b.length

/-- The `while` loop of `hkdfSha256`. -/
def expandLoop (hmac : Hmac) (prk info : Bytes) (length : ℕ) (previous out : Bytes)
    (offset counter : ℕ) : Bytes :=
  if offset < length then
    let previous := hmac prk (previous ++ info ++ [UInt8.ofNat counter])
    let n := min previous.toList.length (length - offset)
    expandLoop hmac prk info length previous.toList
      (out.take offset ++ previous.toList.take n ++ out.drop (offset + n)) (offset + n) (counter + 1)
  else out
termination_by length - offset
decreasing_by
  rw [List.Vector.toList_length]
  omega

def hkdfSha256 (hmac : Hmac) (salt ikm info : Bytes) (length : ℕ) : Bytes :=
  expandLoop hmac (hmac salt ikm).toList info length [] (List.replicate length 0) 0 1

/-- The value of a group of five bytes. -/
def groupLong (okm : Bytes) (group : ℕ) : Int64 :=
  (List.range 5).foldl
    (fun value i => value <<< 8 ||| (byteToLong (okm.getD (group * 5 + i) 0) &&& 0xFF)) 0

def fingerprintDigits (hmac : Hmac) (locale : Locale) (localKey remoteKey : Bytes) : String :=
  let ikm := if compareUnsigned localKey remoteKey ≤ 0 then localKey ++ remoteKey
    else remoteKey ++ localKey
  let okm := hkdfSha256 hmac fingerprintContext ikm fingerprintContext fingerprintLen
  String.ofList ([' '].intercalate ((List.range 12).map (fun group =>
    locale.format05d (groupLong okm group % 100000).toInt.toNat)))

section Bytes

lemma toInt_byteToInt (b : UInt8) : (byteToInt b &&& 0xFF).toInt = b.toNat := by
  have hall : ∀ n : Fin 256, (byteToInt (UInt8.ofNat n) &&& 0xFF).toInt = n := by decide +kernel
  have hb := hall ⟨b.toNat, b.toNat_lt⟩
  rwa [UInt8.ofNat_toNat] at hb

lemma byteToLong_eq (b : UInt8) : byteToLong b &&& 0xFF = Int64.ofNat b.toNat := by
  have hall : ∀ n : Fin 256, byteToLong (UInt8.ofNat n) &&& 0xFF = Int64.ofNat n := by decide +kernel
  have hb := hall ⟨b.toNat, b.toNat_lt⟩
  rwa [UInt8.ofNat_toNat] at hb

lemma toInt_difference (x y : UInt8) :
    ((byteToInt x &&& 0xFF) - (byteToInt y &&& 0xFF)).toInt = (x.toNat : ℤ) - y.toNat := by
  have hx := x.toNat_lt
  have hy := y.toNat_lt
  rw [Int32.toInt_sub, toInt_byteToInt, toInt_byteToInt]
  apply Int.bmod_eq_of_le <;> omega

lemma compareUnsigned_cons (x y : UInt8) (a b : Bytes) :
    compareUnsigned (x :: a) (y :: b) =
      if x = y then compareUnsigned a b else (x.toNat : ℤ) - y.toNat := by
  have hd := toInt_difference x y
  unfold compareUnsigned
  simp only [List.zip_cons_cons, List.map_cons, List.find?_cons, List.length_cons]
  by_cases hxy : x = y
  · subst hxy
    have hzero : (byteToInt x &&& 0xFF) - (byteToInt x &&& 0xFF) = 0 := Int32.sub_self _
    simp [hzero]
  · have hne : (byteToInt x &&& 0xFF) - (byteToInt y &&& 0xFF) ≠ 0 := by
      intro hzero
      rw [hzero, Int32.toInt_zero] at hd
      exact hxy (UInt8.toNat_inj.mp (by omega))
    simp only [hne, ne_eq, not_false_eq_true, decide_true, hxy, if_false]
    exact hd

/-- The comparison is that of unsigned bytes in lexicographic order. -/
lemma compareUnsigned_nonpos_iff (a b : Bytes) : compareUnsigned a b ≤ 0 ↔ a ≤ b := by
  induction a generalizing b with
  | nil => simp [compareUnsigned]
  | cons x a ih =>
    cases b with
    | nil => simp [compareUnsigned]
    | cons y b =>
      rw [compareUnsigned_cons, List.cons_le_cons_iff]
      by_cases hxy : x = y
      · subst hxy
        simp [ih]
      · have hlt : x < y ↔ x.toNat < y.toNat := UInt8.lt_iff_toNat_lt
        have hne : x.toNat ≠ y.toNat := fun h => hxy (UInt8.toNat_inj.mp h)
        rw [if_neg hxy, hlt]
        simp only [hxy, false_and, or_false]
        omega

end Bytes

section Expand

variable {hmac : Hmac} {prk info : Bytes} {length : ℕ}

/-- The loop after `i` whole blocks writes the blocks that follow, up to the length. -/
lemma expandLoop_eq (n i : ℕ) {offset : ℕ} {out : Bytes} (hout : out.length = length)
    (hoffset : offset ≤ length) (hn : length - offset ≤ n * 32) :
    expandLoop hmac prk info length (Hkdf.block hmac prk info i) out offset (i + 1) =
      out.take offset ++ (Hkdf.blocksFrom hmac prk info i n).take (length - offset) := by
  induction n generalizing i offset out with
  | zero =>
    have hend : ¬offset < length := by omega
    rw [expandLoop, if_neg hend, List.take_of_length_le (by omega)]
    simp [Hkdf.blocksFrom]
  | succ n ih =>
    rw [expandLoop]
    by_cases hlt : offset < length
    · have hblock : (hmac prk (Hkdf.block hmac prk info i ++ info ++ [UInt8.ofNat (i + 1)])).toList =
          Hkdf.block hmac prk info (i + 1) := rfl
      have hlength : (Hkdf.block hmac prk info (i + 1)).length = 32 := Hkdf.length_block_succ i
      simp only [if_pos hlt, hblock, hlength]
      have hwritten : (out.take offset ++ (Hkdf.block hmac prk info (i + 1)).take
          (min 32 (length - offset)) ++ out.drop (offset + min 32 (length - offset))).length =
          length := by
        simp only [List.length_append, List.length_take, List.length_drop, hlength, hout]
        omega
      have htake : (out.take offset ++ (Hkdf.block hmac prk info (i + 1)).take
          (min 32 (length - offset)) ++ out.drop (offset + min 32 (length - offset))).take
          (offset + min 32 (length - offset)) =
          out.take offset ++ (Hkdf.block hmac prk info (i + 1)).take (min 32 (length - offset)) := by
        apply List.take_left'
        simp only [List.length_append, List.length_take, hlength, hout]
        omega
      rw [ih (i + 1) hwritten (by omega) (by omega), htake, Hkdf.blocksFrom_succ, List.take_append,
        hlength, List.append_assoc]
      congr 2
      · by_cases hlong : 32 ≤ length - offset
        · rw [min_eq_left hlong, List.take_of_length_le hlength.le, List.take_of_length_le (by omega)]
        · rw [min_eq_right (by omega)]
      · congr 1
        omega
    · have hzero : length - offset = 0 := by omega
      rw [if_neg hlt, hzero, List.take_zero, List.append_nil, List.take_of_length_le (by omega)]

/-- The loop is HKDF of RFC 5869. -/
theorem hkdfSha256_eq (hmac : Hmac) (salt ikm info : Bytes) (length : ℕ) :
    hkdfSha256 hmac salt ikm info length =
      Hkdf.expand hmac (Hkdf.extract hmac salt ikm) info length := by
  have hblocks : length - 0 ≤ (length + 32 - 1) / 32 * 32 := Hkdf.le_blockCount (by decide) length
  have hout : (List.replicate length (0 : UInt8)).length = length := List.length_replicate
  have hloop := @expandLoop_eq hmac (hmac salt ikm).toList info length ((length + 32 - 1) / 32) 0 0 _
    hout (Nat.zero_le length) hblocks
  rwa [List.take_zero, List.nil_append] at hloop

end Expand

section Groups

/-- A group as a big-endian number. -/
def groupNat (chunk : Bytes) : ℕ := chunk.foldl (fun acc byte => acc * 256 + byte.toNat) 0

lemma toNat_shift_or {acc : UInt64} (h : acc.toNat < 2 ^ 48) (b : UInt8) :
    (acc <<< 8 ||| b.toUInt64).toNat = acc.toNat * 256 + b.toNat := by
  have hb : b.toNat < 2 ^ 8 := b.toNat_lt
  have hshift : acc.toNat <<< 8 = acc.toNat * 256 := Nat.shiftLeft_eq acc.toNat 8
  have height : (8 : UInt64).toNat % 64 = 8 := rfl
  rw [UInt64.toNat_or, UInt64.toNat_shiftLeft, UInt8.toNat_toUInt64, height,
    Nat.mod_eq_of_lt (by omega), ← Nat.shiftLeft_add_eq_or_of_lt hb, hshift]

lemma ofNat_shift_or {n b : ℕ} (hn : n < 2 ^ 48) (hb : b < 2 ^ 8) :
    Int64.ofNat n <<< 8 ||| Int64.ofNat b = Int64.ofNat (n * 256 + b) := by
  have height : (Int64.toBitVec 8).smod 64 = 8#64 := by decide
  have hnat : (8#64).toNat = 8 := rfl
  have hshift : n <<< 8 = n * 256 := Nat.shiftLeft_eq n 8
  apply Int64.toBitVec_inj.mp
  rw [Int64.toBitVec_or, Int64.toBitVec_shiftLeft, height]
  simp only [Int64.toBitVec_ofNat']
  apply BitVec.eq_of_toNat_eq
  rw [BitVec.toNat_or, BitVec.shiftLeft_eq', hnat, BitVec.toNat_shiftLeft, BitVec.toNat_ofNat,
    BitVec.toNat_ofNat, BitVec.toNat_ofNat, Nat.mod_eq_of_lt (show n < 2 ^ 64 by omega),
    Nat.mod_eq_of_lt (show b < 2 ^ 64 by omega),
    Nat.mod_eq_of_lt (show n <<< 8 < 2 ^ 64 by omega), ← Nat.shiftLeft_add_eq_or_of_lt hb, hshift,
    Nat.mod_eq_of_lt (show n * 256 + b < 2 ^ 64 by omega)]

/-- Bytes that come after `k` others still fit. -/
lemma groupStep_lt {n k : ℕ} (hn : n < 256 ^ k) (b : UInt8) : n * 256 + b.toNat < 256 ^ (k + 1) := by
  have hb := b.toNat_lt
  rw [Nat.pow_succ]
  omega

lemma lt_of_lt_pow {n k : ℕ} (hn : n < 256 ^ k) (hk : k ≤ 6) : n < 2 ^ 48 :=
  hn.trans_le (Nat.pow_le_pow_right (by decide) hk)

lemma toNat_foldl (chunk : Bytes) {acc : UInt64} {k : ℕ} (hacc : acc.toNat < 256 ^ k)
    (hk : k + chunk.length ≤ 6) :
    (List.foldl (fun (acc : UInt64) (byte : UInt8) => acc <<< 8 ||| byte.toUInt64) acc chunk).toNat =
      chunk.foldl (fun acc byte => acc * 256 + byte.toNat) acc.toNat := by
  induction chunk generalizing acc k with
  | nil => rfl
  | cons b chunk ih =>
    rw [List.length_cons] at hk
    have hstep := toNat_shift_or (lt_of_lt_pow hacc (by omega)) b
    have hnext : (acc <<< 8 ||| b.toUInt64).toNat < 256 ^ (k + 1) := hstep ▸ groupStep_lt hacc b
    rw [List.foldl_cons, List.foldl_cons, ih hnext (by omega), hstep]

lemma foldl_ofNat (chunk : Bytes) {n k : ℕ} (hn : n < 256 ^ k) (hk : k + chunk.length ≤ 6) :
    List.foldl (fun (value : Int64) (byte : UInt8) => value <<< 8 ||| (byteToLong byte &&& 0xFF))
        (Int64.ofNat n) chunk =
      Int64.ofNat (chunk.foldl (fun acc byte => acc * 256 + byte.toNat) n) := by
  induction chunk generalizing n k with
  | nil => rfl
  | cons b chunk ih =>
    rw [List.length_cons] at hk
    have hstep := ofNat_shift_or (lt_of_lt_pow hn (by omega)) b.toNat_lt
    rw [List.foldl_cons, List.foldl_cons, byteToLong_eq, hstep, ih (groupStep_lt hn b) (by omega)]

lemma groupNat_lt {chunk : Bytes} (h : chunk.length ≤ 6) : groupNat chunk < 2 ^ 48 := by
  have hbound : ∀ (l : Bytes) (n k : ℕ), n < 256 ^ k → k + l.length ≤ 6 →
      l.foldl (fun acc byte => acc * 256 + byte.toNat) n < 256 ^ 6 := by
    intro l
    induction l with
    | nil => exact fun n k hn hk => lt_of_lt_pow hn (by simpa using hk)
    | cons b l ih =>
      intro n k hn hk
      rw [List.length_cons] at hk
      exact ih _ (k + 1) (groupStep_lt hn b) (by omega)
  exact hbound chunk 0 0 (by decide) (by omega)

lemma toNat_groupValue {chunk : Bytes} (h : chunk.length ≤ 6) :
    (Fingerprint.groupValue chunk % 100000).toNat = groupNat chunk % 100000 := by
  have hvalue : (Fingerprint.groupValue chunk).toNat = groupNat chunk :=
    toNat_foldl chunk (show (0 : UInt64).toNat < 256 ^ 0 by decide) (by omega)
  rw [UInt64.toNat_mod, hvalue]
  rfl

/-- The two groups of five bytes have one value. -/
lemma toNat_groupLong {okm : Bytes} {group : ℕ} (h : group * 5 + 5 ≤ okm.length) :
    (groupLong okm group % 100000).toInt.toNat = groupNat ((okm.drop (group * 5)).take 5) % 100000 := by
  have hchunk : ((okm.drop (group * 5)).take 5).length = 5 := by
    rw [List.length_take, List.length_drop]
    omega
  have hbytes : (List.range 5).map (fun i => okm.getD (group * 5 + i) 0) =
      (okm.drop (group * 5)).take 5 := by
    apply List.ext_getElem
    · simpa using hchunk.symm
    · intro i hi _
      have hi' : group * 5 + i < okm.length := by
        rw [List.length_map, List.length_range] at hi
        omega
      simp [hi']
  have hlong : groupLong okm group = Int64.ofNat (groupNat ((okm.drop (group * 5)).take 5)) := by
    have hfold := foldl_ofNat ((okm.drop (group * 5)).take 5) (n := 0) (k := 0) (by decide) (by omega)
    rw [← hbytes, List.foldl_map] at hfold
    rw [groupNat, ← hbytes]
    exact hfold
  have hlt : groupNat ((okm.drop (group * 5)).take 5) < 2 ^ 48 := groupNat_lt (by omega)
  have hmod : (Int64.ofNat (groupNat ((okm.drop (group * 5)).take 5)) % 100000).toInt =
      ((groupNat ((okm.drop (group * 5)).take 5) % 100000 : ℕ) : ℤ) := by
    rw [Int64.toInt_mod, Int64.toInt_ofNat_of_lt (by omega)]
    exact (Int.ofNat_tmod _ 100000).symm
  rw [hlong, hmod, Int.toNat_natCast]

end Groups

section Digits

variable {locale : Locale}

lemma toNat_ofNat {n : ℕ} (h : n.isValidChar) : (Char.ofNat n).toNat = n := by
  unfold Char.ofNat
  rw [dif_pos h]
  rfl

lemma toNat_of_isDigit {c : Char} (hc : c.isDigit = true) :
    '0'.toNat ≤ c.toNat ∧ c.toNat ≤ '0'.toNat + 9 := by
  have hrange : 48 ≤ c.val ∧ c.val ≤ 57 := by simpa [Char.isDigit] using hc
  exact hrange

lemma Locale.toNat_digit {c : Char} (hc : c.isDigit = true) :
    (locale.digit c).toNat = c.toNat - '0'.toNat + locale.zeroDigit.toNat := by
  have hrange := toNat_of_isDigit hc
  have hvalid := locale.valid (c.toNat - '0'.toNat) (by omega)
  rw [Nat.add_comm] at hvalid
  exact toNat_ofNat hvalid

/-- The zero digit of a locale is its digit for zero. -/
lemma Locale.digit_zero : locale.digit '0' = locale.zeroDigit := by
  unfold Locale.digit
  rw [Nat.sub_self, Nat.zero_add, Char.ofNat_toNat]

/-- Formatting writes the digits of the locale for those of ASCII. -/
lemma Locale.format05d_eq (n : ℕ) :
    locale.format05d n = (List.leftpad 5 '0' (Nat.toDigits 10 n)).map locale.digit := by
  unfold Locale.format05d List.leftpad
  rw [List.map_append, List.map_replicate, List.length_map, Locale.digit_zero]

lemma isDigit_of_mem_leftpad {n : ℕ} {c : Char} (h : c ∈ List.leftpad 5 '0' (Nat.toDigits 10 n)) :
    c.isDigit = true := by
  unfold List.leftpad at h
  rcases List.mem_append.mp h with hzero | hdigit
  · rw [List.eq_of_mem_replicate hzero]
    rfl
  · exact Text.isDigit_of_mem_toDigits hdigit

lemma Locale.digit_eq_self_iff {c : Char} (hc : c.isDigit = true) :
    locale.digit c = c ↔ locale.zeroDigit = '0' := by
  have hle := (toNat_of_isDigit hc).1
  rw [← Char.toNat_inj, ← Char.toNat_inj, toNat_digit hc]
  omega

lemma head?_intercalate {α : Type} (sep x : List α) (hx : x ≠ []) (xs : List (List α)) :
    (sep.intercalate (x :: xs)).head? = x.head? := by
  obtain ⟨a, x, rfl⟩ := List.exists_cons_of_ne_nil hx
  cases xs with
  | nil => simp [List.intercalate]
  | cons y ys => simp [List.intercalate]

/-- Android prints the groups of the fingerprint in the digits of its locale. -/
lemma fingerprintDigits_eq (hmac : Hmac) (locale : Locale) (localKey remoteKey : Bytes) :
    fingerprintDigits hmac locale localKey remoteKey = String.ofList ([' '].intercalate
      ((chunksExact 5 (Fingerprint.compute hmac localKey remoteKey).bytes.toList).map
        (fun chunk => (Fingerprint.groupDigits chunk).map locale.digit))) := by
  let okm := (Fingerprint.compute hmac localKey remoteKey).bytes.toList
  have hlength : okm.length = 60 := List.Vector.toList_length _
  have hikm : (if compareUnsigned localKey remoteKey ≤ 0 then localKey ++ remoteKey
      else remoteKey ++ localKey) = Fingerprint.ikm localKey remoteKey := by
    unfold Fingerprint.ikm
    simp only [compareUnsigned_nonpos_iff]
  have hokm : hkdfSha256 hmac fingerprintContext (Fingerprint.ikm localKey remoteKey)
      fingerprintContext fingerprintLen = okm := hkdfSha256_eq _ _ _ _ _
  unfold fingerprintDigits
  simp only [hikm, hokm]
  change _ = String.ofList ([' '].intercalate ((chunksExact 5 okm).map _))
  unfold chunksExact
  rw [hlength, List.map_map]
  congr 2
  apply List.map_congr_left
  intro group hgroup
  have hlt : group < 12 := List.mem_range.mp hgroup
  have hchunk : ((okm.drop (group * 5)).take 5).length ≤ 6 := by
    rw [List.length_take]
    omega
  rw [toNat_groupLong (by omega), Locale.format05d_eq, ← toNat_groupValue hchunk]
  rfl

/-- The two texts are the same exactly when the locale has the digits of ASCII. -/
lemma digits_eq_iff (hmac : Hmac) (locale : Locale) (localKey remoteKey : Bytes) :
    fingerprintDigits hmac locale localKey remoteKey =
      (Fingerprint.compute hmac localKey remoteKey).digits ↔ locale.zeroDigit = '0' := by
  rw [fingerprintDigits_eq, Fingerprint.digits]
  let okm := (Fingerprint.compute hmac localKey remoteKey).bytes.toList
  have hlength : okm.length = 60 := List.Vector.toList_length _
  change String.ofList ([' '].intercalate ((chunksExact 5 okm).map _)) =
    String.ofList ([' '].intercalate ((chunksExact 5 okm).map _)) ↔ _
  constructor
  · intro h
    -- the first character decides: it is a digit in one of the two scripts
    have hgroups : ∃ chunk rest, chunksExact 5 okm = chunk :: rest := by
      unfold chunksExact
      rw [hlength]
      exact ⟨_, _, rfl⟩
    obtain ⟨chunk, rest, hchunks⟩ := hgroups
    have hne : Fingerprint.groupDigits chunk ≠ [] := by
      unfold Fingerprint.groupDigits List.leftpad
      simp [Nat.toDigits_ne_nil]
    have hhead := congrArg List.head? (String.ofList_injective h)
    rw [hchunks, List.map_cons, List.map_cons, head?_intercalate _ _ (by simpa using hne),
      head?_intercalate _ _ hne, List.head?_map] at hhead
    obtain ⟨c, digits, hc⟩ := List.exists_cons_of_ne_nil hne
    have hdigit : c.isDigit = true := by
      apply isDigit_of_mem_leftpad
      rw [← Fingerprint.groupDigits, hc]
      exact List.mem_cons_self
    rw [hc, List.head?_cons, Option.map_some, Option.some.injEq] at hhead
    exact (Locale.digit_eq_self_iff hdigit).mp hhead
  · intro hzero
    congr 2
    apply List.map_congr_left
    intro chunk _
    have hself : ∀ c ∈ Fingerprint.groupDigits chunk, locale.digit c = c := by
      intro c hc
      exact (Locale.digit_eq_self_iff (isDigit_of_mem_leftpad hc)).mpr hzero
    exact (List.map_congr_left hself).trans (List.map_id _)

/-- The two implementations show the same digits, whichever key comes first, exactly on
devices whose locale writes numbers in ASCII. -/
theorem fingerprintDigits_eq_digits_iff (hmac : Hmac) (locale : Locale) (localKey remoteKey : Bytes) :
    (fingerprintDigits hmac locale localKey remoteKey =
        (Fingerprint.compute hmac localKey remoteKey).digits ∧
      fingerprintDigits hmac locale localKey remoteKey =
        fingerprintDigits hmac locale remoteKey localKey ∧
      (Fingerprint.compute hmac localKey remoteKey).digits =
        (Fingerprint.compute hmac remoteKey localKey).digits) ↔ locale.zeroDigit = '0' := by
  have hswap : fingerprintDigits hmac locale localKey remoteKey =
      fingerprintDigits hmac locale remoteKey localKey := by
    rw [fingerprintDigits_eq, fingerprintDigits_eq, Fingerprint.compute_comm]
  have hswap' : (Fingerprint.compute hmac localKey remoteKey).digits =
      (Fingerprint.compute hmac remoteKey localKey).digits := by
    rw [Fingerprint.compute_comm]
  rw [and_iff_left ⟨hswap, hswap'⟩]
  exact digits_eq_iff hmac locale localKey remoteKey

end Digits

section KnownAnswer

/-- The key of the Android client, of the source's test vector. -/
def clientKey : Bytes := (Server.unbase64 "Ba/PJNiocgVy1eIXNPIkzwFo1vz6wAEhtGrNOTNBWAoj").getD []

/-- The key of its peer. -/
def peerKey : Bytes := (Server.unbase64 "BcBSW4zuZfpaoAekU3rI4fuOcxvFAT+mWxI2V93zjctM").getD []

example : (Fingerprint.compute Sha256.hmac clientKey peerKey).digits =
    "03629 84610 48359 95354 16784 69458 58902 57435 92969 05337 94466 27238" := by decide +kernel

/-- A locale that writes numbers in Arabic-Indic digits. -/
def arabicIndic : Locale where
  zeroDigit := '٠'
  valid d hd := Or.inl (by
    have hzero : '٠'.toNat = 1632 := rfl
    omega)

theorem fingerprintDigits_ne_digits_arabicIndic :
    fingerprintDigits Sha256.hmac arabicIndic clientKey peerKey ≠
      (Fingerprint.compute Sha256.hmac clientKey peerKey).digits := by
  intro h
  exact absurd ((digits_eq_iff _ _ _ _).mp h) (by decide)

end KnownAnswer

end Parda.Android
