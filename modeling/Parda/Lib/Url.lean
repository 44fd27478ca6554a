import Mathlib.Algebra.Ring.Nat
import Mathlib.Data.List.DropRight
import Mathlib.Data.List.Flatten
import Parda.Lib.Utf8

/-!
# URL paths

The path part of an `http` URL as the URL standard parses it, and percent-coding of its segments.
A segment is kept as characters until it is encoded.
-/

namespace Url

/-! ### Percent-coding -/

def hexDigit (n : UInt8) : UInt8 := if n < 10 then 0x30 + n else 0x37 + n

/-- Both cases of the digits are read. -/
def hexValue (b : UInt8) : Option UInt8 :=
  if 0x30 ≤ b ∧ b ≤ 0x39 then some (b - 0x30)
  else if 0x41 ≤ b ∧ b ≤ 0x46 then some (b - 0x37)
  else if 0x61 ≤ b ∧ b ≤ 0x66 then some (b - 0x57)
  else none

/-- The bytes that the path percent-encode set names. -/
def inPathSet (b : UInt8) : Bool :=
  b ≤ 0x20 || 0x7E < b || [0x22, 0x23, 0x3C, 0x3E, 0x3F, 0x60, 0x7B, 0x7D].contains b

def percentEncodeByte (b : UInt8) : List UInt8 := [0x25, hexDigit (b / 16), hexDigit (b % 16)]

def percentEncode (bytes : List UInt8) : List UInt8 :=
  bytes.flatMap fun b => if inPathSet b then percentEncodeByte b else [b]

/-- The byte of the escape that three bytes make, if they make one. -/
def escape (b hi lo : UInt8) : Option UInt8 :=
  match hexValue hi, hexValue lo with
  | some x, some y => if b = 0x25 then some (16 * x + y) else none
  | _, _ => none

/-- A `%` that two hex digits do not follow stays. -/
def percentDecode : List UInt8 → List UInt8
  | b :: hi :: lo :: rest =>
    match escape b hi lo with
    | some x => x :: percentDecode rest
    | none => b :: percentDecode (hi :: lo :: rest)
  | b :: rest => b :: percentDecode rest
  | [] => []

def hasEscape : List UInt8 → Bool
  | b :: hi :: lo :: rest => (escape b hi lo).isSome || hasEscape (hi :: lo :: rest)
  | _ => false

lemma percentDecode_of_escape {b hi lo x : UInt8} (h : escape b hi lo = some x)
    (rest : List UInt8) : percentDecode (b :: hi :: lo :: rest) = x :: percentDecode rest := by
  rw [percentDecode, h]

lemma forall_byte {P : UInt8 → Prop} (h : ∀ n : Fin 256, P (UInt8.ofFin n)) (b : UInt8) : P b :=
  h b.toFin

lemma escape_percentEncodeByte (b : UInt8) :
    escape 0x25 (hexDigit (b / 16)) (hexDigit (b % 16)) = some b := by
  apply forall_byte (P := fun b => escape 0x25 (hexDigit (b / 16)) (hexDigit (b % 16)) = some b)
  decide +kernel

lemma percentDecode_percentEncodeByte (b : UInt8) (rest : List UInt8) :
    percentDecode (percentEncodeByte b ++ rest) = b :: percentDecode rest :=
  percentDecode_of_escape (escape_percentEncodeByte b) rest

lemma percentEncode_cons (b : UInt8) (bytes : List UInt8) :
    percentEncode (b :: bytes) =
      (if inPathSet b then percentEncodeByte b else [b]) ++ percentEncode bytes := rfl

lemma percentEncode_cons_of_not_mem {b : UInt8} (hb : inPathSet b = false) (bytes : List UInt8) :
    percentEncode (b :: bytes) = b :: percentEncode bytes := by
  rw [percentEncode_cons, if_neg (by simp [hb]), List.singleton_append]

lemma percentEncode_cons_of_mem {b : UInt8} (hb : inPathSet b = true) (bytes : List UInt8) :
    percentEncode (b :: bytes) = percentEncodeByte b ++ percentEncode bytes := by
  rw [percentEncode_cons, if_pos hb]

lemma not_inPathSet_of_hexValue {b x : UInt8} (h : hexValue b = some x) :
    inPathSet b = false := by
  have hall := forall_byte (P := fun b => (hexValue b).isSome → inPathSet b = false)
    (by decide +kernel) b
  exact hall (by rw [h]; rfl)

lemma eq_of_escape {b hi lo x : UInt8} (h : escape b hi lo = some x) :
    b = 0x25 ∧ inPathSet hi = false ∧ inPathSet lo = false := by
  unfold escape at h
  split at h
  · rename_i hhi hlo
    split at h
    · rename_i hb
      exact ⟨hb, not_inPathSet_of_hexValue hhi, not_inPathSet_of_hexValue hlo⟩
    · cases h
  · cases h

lemma percentDecode_of_escape_none {b hi lo : UInt8} (h : escape b hi lo = none)
    (rest : List UInt8) :
    percentDecode (b :: hi :: lo :: rest) = b :: percentDecode (hi :: lo :: rest) := by
  rw [percentDecode, h]

lemma escape_percent_left (b lo : UInt8) : escape b 0x25 lo = none := rfl

lemma escape_percent_right (b hi : UInt8) : escape b hi 0x25 = none := by
  unfold escape
  cases hexValue hi with
  | none => rfl
  | some x => rfl

/-- An encoded byte begins with `%`, which is no hex digit, so encoding what follows `b` does not
make `b` part of an escape. -/
lemma percentDecode_cons_percentEncode (b : UInt8) (rest : List UInt8)
    (h : ∀ hi lo tail, rest = hi :: lo :: tail → escape b hi lo = none) :
    percentDecode (b :: percentEncode rest) = b :: percentDecode (percentEncode rest) := by
  match rest with
  | [] => rfl
  | hi :: tail =>
    by_cases hhi : inPathSet hi = true
    · rw [percentEncode_cons_of_mem hhi]
      exact percentDecode_of_escape_none (escape_percent_left ..) _
    · rw [percentEncode_cons_of_not_mem (by simpa using hhi)]
      match tail with
      | [] => rfl
      | lo :: tail =>
        by_cases hlo : inPathSet lo = true
        · rw [percentEncode_cons_of_mem hlo]
          exact percentDecode_of_escape_none (escape_percent_right ..) _
        · rw [percentEncode_cons_of_not_mem (by simpa using hlo)]
          exact percentDecode_of_escape_none (h hi lo tail rfl) _

theorem percentDecode_percentEncode (bytes : List UInt8) :
    percentDecode (percentEncode bytes) = percentDecode bytes := by
  induction bytes using percentDecode.induct with
  | case1 b hi lo rest x hx ih =>
    obtain ⟨rfl, hhi, hlo⟩ := eq_of_escape hx
    rw [percentEncode_cons_of_not_mem rfl, percentEncode_cons_of_not_mem hhi,
      percentEncode_cons_of_not_mem hlo, percentDecode_of_escape hx, percentDecode_of_escape hx, ih]
  | case2 b hi lo rest hx ih =>
    rw [percentDecode_of_escape_none hx, ← ih]
    by_cases hb : inPathSet b = true
    · rw [percentEncode_cons_of_mem hb, percentDecode_percentEncodeByte]
    · rw [percentEncode_cons_of_not_mem (by simpa using hb)]
      apply percentDecode_cons_percentEncode
      rintro _ _ _ ⟨⟩
      exact hx
  | case3 b rest hrest ih =>
    have hshort : percentDecode (b :: rest) = b :: percentDecode rest := by
      match rest with
      | [] => rfl
      | [_] => rfl
      | hi :: lo :: tail => exact absurd rfl (hrest hi lo tail)
    rw [hshort, ← ih]
    by_cases hb : inPathSet b = true
    · rw [percentEncode_cons_of_mem hb, percentDecode_percentEncodeByte]
    · rw [percentEncode_cons_of_not_mem (by simpa using hb)]
      apply percentDecode_cons_percentEncode
      intro hi lo tail hr
      exact absurd hr (hrest hi lo tail)
  | case4 => rfl

lemma percentDecode_eq_nil_iff (bytes : List UInt8) : percentDecode bytes = [] ↔ bytes = [] := by
  constructor
  · intro h
    induction bytes using percentDecode.induct with
    | case1 b hi lo rest x hx ih =>
      rw [percentDecode_of_escape hx] at h
      cases h
    | case2 b hi lo rest hx ih =>
      rw [percentDecode_of_escape_none hx] at h
      cases h
    | case3 b rest hrest ih =>
      match rest with
      | [] => cases h
      | [_] => cases h
      | hi :: lo :: tail => exact absurd rfl (hrest hi lo tail)
    | case4 => rfl
  · rintro rfl
    rfl

theorem percentDecode_of_not_hasEscape (bytes : List UInt8) (h : hasEscape bytes = false) :
    percentDecode bytes = bytes := by
  induction bytes using percentDecode.induct with
  | case1 b hi lo rest x hx ih =>
    rw [hasEscape, hx] at h
    cases h
  | case2 b hi lo rest hx ih =>
    rw [hasEscape, Bool.or_eq_false_iff] at h
    rw [percentDecode_of_escape_none hx, ih h.2]
  | case3 b rest hrest ih =>
    match rest with
    | [] => rfl
    | [_] => rfl
    | hi :: lo :: tail => exact absurd rfl (hrest hi lo tail)
  | case4 => rfl

/-- Every escape makes the text shorter. -/
theorem length_percentDecode (bytes : List UInt8) :
    (percentDecode bytes).length ≤ bytes.length ∧
      (hasEscape bytes = true → (percentDecode bytes).length < bytes.length) := by
  induction bytes using percentDecode.induct with
  | case1 b hi lo rest x hx ih =>
    rw [percentDecode_of_escape hx]
    simp only [List.length_cons]
    omega
  | case2 b hi lo rest hx ih =>
    rw [percentDecode_of_escape_none hx, hasEscape, hx]
    simp only [List.length_cons, Option.isSome_none, Bool.false_or] at ih ⊢
    exact ⟨by omega, fun h => by have := ih.2 h; omega⟩
  | case3 b rest hrest ih =>
    match rest with
    | [] => exact ⟨Nat.le_refl _, fun h => nomatch h⟩
    | [_] => exact ⟨Nat.le_refl _, fun h => nomatch h⟩
    | hi :: lo :: tail => exact absurd rfl (hrest hi lo tail)
  | case4 => exact ⟨Nat.le_refl _, fun h => nomatch h⟩

/-! ### The path state -/

def isC0ControlOrSpace (c : Char) : Bool := c ≤ ' '

def isTabOrNewline (c : Char) : Bool := c = '\t' || c = '\n' || c = '\r'

def isSlash (c : Char) : Bool := c = '/' || c = '\\'

def endsPath (c : Char) : Bool := c = '?' || c = '#'

/-- The spellings of a dot. Encoding a segment neither makes one nor hides one. -/
def dots : List (List Char) := [['.'], ['%', '2', 'e'], ['%', '2', 'E']]

def isSingleDot (piece : List Char) : Bool := dots.contains piece

def isDoubleDot (piece : List Char) : Bool :=
  (dots.flatMap fun first => dots.map (first ++ ·)).contains piece

/-- What of a URL's text, from the end of its authority on, belongs to the path. -/
def pathText (target : List Char) : List Char :=
  ((target.rdropWhile isC0ControlOrSpace).filter fun c => !isTabOrNewline c).takeWhile
    fun c => !endsPath c

/-- The pieces of the path text, one after the other. -/
def addSegments (path : List (List Char)) : List (List Char) → List (List Char)
  | [] => path
  | [last] =>
    if isDoubleDot last then path.dropLast ++ [[]]
    else if isSingleDot last then path ++ [[]]
    else path ++ [last]
  | piece :: next :: rest =>
    addSegments (if isDoubleDot piece then path.dropLast
      else if isSingleDot piece then path else path ++ [piece]) (next :: rest)

/-- The segments of the path, before they are encoded. -/
def segments (target : List Char) : List (List Char) :=
  let body := match pathText target with
    | [] => []
    | c :: rest => if isSlash c then rest else c :: rest
  addSegments [] (body.splitOnP isSlash)

def encodeSegment (segment : List Char) : List UInt8 :=
  percentEncode (segment.flatMap String.utf8EncodeChar)

/-- The path of the URL that `target` makes after an authority. -/
def path (target : String) : List (List UInt8) := (segments target.toList).map encodeSegment

/-! ### Texts made of segments -/

/-- The text that parsing leaves as it is, as a segment with others after it. -/
structure Plain (piece : List Char) : Prop where
  chars : ∀ c ∈ piece, isTabOrNewline c = false ∧ endsPath c = false ∧ isSlash c = false
  notSingleDot : isSingleDot piece = false
  notDoubleDot : isDoubleDot piece = false

lemma plain_iff (piece : List Char) :
    (piece.all (fun c => !isTabOrNewline c && !endsPath c && !isSlash c) = true ∧
      isSingleDot piece = false ∧ isDoubleDot piece = false) ↔ Plain piece := by
  simp only [List.all_eq_true, Bool.and_eq_true, Bool.not_eq_true', and_assoc]
  exact ⟨fun h => ⟨h.1, h.2.1, h.2.2⟩, fun h => ⟨h.chars, h.notSingleDot, h.notDoubleDot⟩⟩

instance (piece : List Char) : Decidable (Plain piece) := decidable_of_iff _ (plain_iff piece)

lemma addSegments_of_plain (path pieces : List (List Char)) (h : ∀ p ∈ pieces, Plain p) :
    addSegments path pieces = path ++ pieces := by
  induction path, pieces using addSegments.induct with
  | case1 path => simp [addSegments]
  | case2 path last hd => exact absurd (h last (by simp)).notDoubleDot (by simp [hd])
  | case3 path last _ hs => exact absurd (h last (by simp)).notSingleDot (by simp [hs])
  | case4 path last hd hs => simp [addSegments, hd, hs]
  | case5 path piece next rest ih =>
    have hp := h piece (by simp)
    simp only [hp.notDoubleDot, hp.notSingleDot, Bool.false_eq_true, if_false] at ih
    rw [addSegments, if_neg (by simp [hp.notDoubleDot]), if_neg (by simp [hp.notSingleDot]),
      ih (fun p hm => h p (List.mem_cons_of_mem _ hm)), List.append_assoc, List.singleton_append]

/-- A list of texts, each after a slash. -/
def joined (pieces : List (List Char)) : List Char := ['/'].intercalate pieces

lemma splitOnP_joined (pieces : List (List Char)) (hne : pieces ≠ [])
    (h : ∀ p ∈ pieces, ∀ c ∈ p, isSlash c = false) :
    (joined pieces).splitOnP isSlash = pieces := by
  induction pieces with
  | nil => exact absurd rfl hne
  | cons p rest ih =>
    have hp := h p (by simp)
    match rest with
    | [] => rw [joined, List.intercalate_singleton, List.splitOnP_eq_singleton hp]
    | q :: rest =>
      rw [joined, List.intercalate_cons_cons, List.append_assoc, List.singleton_append,
        List.splitOnP_append_cons_of_forall_mem hp '/' rfl]
      rw [joined] at ih
      rw [ih (by simp) (fun r hr => h r (List.mem_cons_of_mem _ hr))]

lemma rdropWhile_cons_of_neg {α : Type} {p : α → Bool} {a : α} (ha : p a = false)
    (l : List α) : (a :: l).rdropWhile p = a :: l.rdropWhile p := by
  unfold List.rdropWhile
  rw [List.reverse_cons, List.dropWhile_append]
  split
  · rename_i h
    rw [List.isEmpty_iff.mp h]
    simp [ha]
  · simp

lemma pathText_slash (rest : List Char) : pathText ('/' :: rest) = '/' :: pathText rest := by
  unfold pathText
  rw [rdropWhile_cons_of_neg (by decide), List.filter_cons_of_pos (by decide),
    List.takeWhile_cons_of_pos (by decide)]

lemma segments_slash (rest : List Char) :
    segments ('/' :: rest) = addSegments [] ((pathText rest).splitOnP isSlash) := by
  unfold segments
  rw [pathText_slash]
  rfl

theorem pathText_eq_self_iff (l : List Char) :
    pathText l = l ↔
      (∀ c ∈ l, isTabOrNewline c = false ∧ endsPath c = false) ∧
        ∀ c ∈ l.getLast?, isC0ControlOrSpace c = false := by
  constructor
  · intro h
    have hcut : (pathText l).length = l.length := by rw [h]
    unfold pathText at h hcut
    have htake := (List.takeWhile_prefix (fun c => !endsPath c)
      (l := (l.rdropWhile isC0ControlOrSpace).filter fun c => !isTabOrNewline c)).length_le
    have hfilter := List.length_filter_le (fun c => !isTabOrNewline c)
      (l.rdropWhile isC0ControlOrSpace)
    have hdrop := (List.rdropWhile_prefix isC0ControlOrSpace l).length_le
    have hl : l.rdropWhile isC0ControlOrSpace = l :=
      (List.rdropWhile_prefix isC0ControlOrSpace l).eq_of_length (by omega)
    rw [hl] at h htake hfilter hcut
    have hf : l.filter (fun c => !isTabOrNewline c) = l :=
      List.filter_eq_self.mpr (List.length_filter_eq_length_iff.mp (by omega))
    rw [hf] at h
    refine ⟨fun c hc => ⟨?_, ?_⟩, fun c hc => ?_⟩
    · simpa using List.filter_eq_self.mp hf c hc
    · simpa using List.takeWhile_eq_self_iff.mp h c hc
    · obtain ⟨hne, rfl⟩ := List.mem_getLast?_eq_getLast hc
      simpa using List.rdropWhile_eq_self_iff.mp hl hne
  · rintro ⟨hchars, hlast⟩
    unfold pathText
    rw [List.rdropWhile_eq_self_iff.mpr
        (fun hne => by simp [hlast _ (List.getLast_mem_getLast? hne)]),
      List.filter_eq_self.mpr (fun c hc => by simp [(hchars c hc).1]),
      List.takeWhile_eq_self_iff.mpr (fun c hc => by simp [(hchars c hc).2])]

/-! ### Sizes

Parsing and decoding never make a text longer; what comes out as long as it went in came out
unchanged. -/

def size (l : List Char) : Nat := (l.flatMap String.utf8EncodeChar).length

def totalSize (pieces : List (List Char)) : Nat := (pieces.map size).sum

@[simp] lemma size_nil : size [] = 0 := rfl

@[simp] lemma size_append (l l' : List Char) : size (l ++ l') = size l + size l' := by
  unfold size
  rw [List.flatMap_append, List.length_append]

lemma size_cons (c : Char) (l : List Char) : size (c :: l) = c.utf8Size + size l := by
  unfold size
  rw [List.flatMap_cons, List.length_append, String.length_utf8EncodeChar]

@[simp] lemma totalSize_nil : totalSize [] = 0 := rfl

@[simp] lemma totalSize_cons (p : List Char) (pieces : List (List Char)) :
    totalSize (p :: pieces) = size p + totalSize pieces := rfl

@[simp] lemma totalSize_append (pieces pieces' : List (List Char)) :
    totalSize (pieces ++ pieces') = totalSize pieces + totalSize pieces' := by
  simp [totalSize]

lemma size_pos {l : List Char} (h : l ≠ []) : 0 < size l := by
  match l with
  | [] => exact absurd rfl h
  | c :: l =>
    rw [size_cons]
    have := c.utf8Size_pos
    omega

lemma size_le_of_sublist {l l' : List Char} (h : l.Sublist l') : size l ≤ size l' := by
  unfold size
  exact (h.flatMap String.utf8EncodeChar).length_le

lemma eq_of_sublist_of_size_le {l l' : List Char} (h : l.Sublist l') (hle : size l' ≤ size l) :
    l = l' := by
  induction h with
  | slnil => rfl
  | cons c h ih =>
    have := size_le_of_sublist h
    have := c.utf8Size_pos
    rw [size_cons] at hle
    omega
  | cons_cons c h ih =>
    rw [size_cons, size_cons] at hle
    rw [ih (by omega)]

lemma totalSize_dropLast_le (pieces : List (List Char)) :
    totalSize pieces.dropLast ≤ totalSize pieces := by
  induction pieces with
  | nil => exact Nat.le_refl _
  | cons p rest ih =>
    match rest with
    | [] => simp
    | q :: rest =>
      rw [List.dropLast_cons_cons, totalSize_cons, totalSize_cons]
      omega

lemma size_pos_of_isSingleDot {piece : List Char} (h : isSingleDot piece = true) :
    0 < size piece := by
  apply size_pos
  rintro rfl
  exact absurd h (by decide)

lemma size_pos_of_isDoubleDot {piece : List Char} (h : isDoubleDot piece = true) :
    0 < size piece := by
  apply size_pos
  rintro rfl
  exact absurd h (by decide)

lemma length_addSegments_le (path pieces : List (List Char)) :
    (addSegments path pieces).length ≤ path.length + pieces.length := by
  induction path, pieces using addSegments.induct with
  | case1 path => simp [addSegments]
  | case2 path last hd => simp [addSegments, hd]
  | case3 path last hd hs => simp [addSegments, hd, hs]
  | case4 path last hd hs => simp [addSegments, hd, hs]
  | case5 path piece next rest ih =>
    rw [addSegments]
    have hpath : (if isDoubleDot piece then path.dropLast
        else if isSingleDot piece then path else path ++ [piece]).length ≤ path.length + 1 := by
      split
      · rw [List.length_dropLast]
        omega
      · split
        · omega
        · simp
    simp only [List.length_cons] at ih ⊢
    omega

/-- A dot segment is not in the path, and a double one may take another with it. -/
lemma totalSize_addSegments (path pieces : List (List Char)) :
    totalSize (addSegments path pieces) ≤ totalSize path + totalSize pieces ∧
      ((∃ p ∈ pieces, isSingleDot p = true ∨ isDoubleDot p = true) →
        totalSize (addSegments path pieces) < totalSize path + totalSize pieces) := by
  induction path, pieces using addSegments.induct with
  | case1 path =>
    refine ⟨Nat.le_refl _, ?_⟩
    rintro ⟨p, hp, -⟩
    cases hp
  | case2 path last hd =>
    have hpos := size_pos_of_isDoubleDot hd
    have hdrop := totalSize_dropLast_le path
    simp only [addSegments, hd, if_true, totalSize_append, totalSize_cons, totalSize_nil, size_nil]
    omega
  | case3 path last hd hs =>
    have hpos := size_pos_of_isSingleDot hs
    simp only [addSegments, hd, hs, if_true, if_false, totalSize_append, totalSize_cons,
      totalSize_nil, size_nil, Bool.false_eq_true]
    omega
  | case4 path last hd hs =>
    simp only [addSegments, hd, hs, if_false, Bool.false_eq_true, totalSize_append, totalSize_cons,
      totalSize_nil, List.mem_singleton, exists_eq_left, or_self, false_implies, and_true]
    exact Nat.le_refl _
  | case5 path piece next rest ih =>
    rw [addSegments, totalSize_cons]
    have hpath : totalSize (if isDoubleDot piece then path.dropLast
        else if isSingleDot piece then path else path ++ [piece]) ≤ totalSize path + size piece ∧
        (isSingleDot piece = true ∨ isDoubleDot piece = true →
          totalSize (if isDoubleDot piece then path.dropLast
            else if isSingleDot piece then path else path ++ [piece]) <
              totalSize path + size piece) := by
      have hdrop := totalSize_dropLast_le path
      by_cases hd : isDoubleDot piece = true
      · have hpos := size_pos_of_isDoubleDot hd
        rw [if_pos hd]
        exact ⟨by omega, fun _ => by omega⟩
      · rw [if_neg hd]
        by_cases hs : isSingleDot piece = true
        · have hpos := size_pos_of_isSingleDot hs
          rw [if_pos hs]
          exact ⟨by omega, fun _ => by omega⟩
        · rw [if_neg hs, totalSize_append, totalSize_cons, totalSize_nil]
          exact ⟨Nat.le_refl _, fun h => absurd h (by simp [hs, hd])⟩
    refine ⟨by omega, ?_⟩
    rintro ⟨p, hp, hdot⟩
    rcases List.mem_cons.mp hp with rfl | hp
    · have := hpath.2 hdot
      omega
    · have := ih.2 ⟨p, hp, hdot⟩
      omega

lemma size_one_of_isSlash {c : Char} (h : isSlash c = true) : c.utf8Size = 1 := by
  unfold isSlash at h
  rw [Bool.or_eq_true, decide_eq_true_iff, decide_eq_true_iff] at h
  rcases h with rfl | rfl <;> decide

lemma totalSize_splitOnP (l : List Char) :
    totalSize (l.splitOnP isSlash) + (l.splitOnP isSlash).length = size l + 1 := by
  induction l with
  | nil => rfl
  | cons c l ih =>
    rw [List.splitOnP_cons_eq_if_modifyHead, size_cons]
    split
    · rename_i hc
      rw [totalSize_cons, size_nil, List.length_cons, size_one_of_isSlash hc]
      omega
    · obtain ⟨p, pieces, hp⟩ := List.exists_cons_of_ne_nil (List.splitOnP_ne_nil isSlash l)
      rw [hp, totalSize_cons, List.length_cons] at ih
      rw [hp, List.modifyHead_cons, totalSize_cons, size_cons, List.length_cons]
      omega

lemma length_splitOnP (l : List Char) :
    (l.splitOnP isSlash).length = l.countP isSlash + 1 := by
  induction l with
  | nil => rfl
  | cons c l ih =>
    rw [List.splitOnP_cons_eq_if_modifyHead]
    split
    · rename_i hc
      rw [List.length_cons, ih, List.countP_cons_of_pos hc]
    · rename_i hc
      rw [List.length_modifyHead, ih, List.countP_cons_of_neg hc]

lemma size_joined (pieces : List (List Char)) (hne : pieces ≠ []) :
    size (joined pieces) + 1 = totalSize pieces + pieces.length := by
  induction pieces with
  | nil => exact absurd rfl hne
  | cons p rest ih =>
    match rest with
    | [] => simp [joined]
    | q :: rest =>
      rw [joined] at ih ⊢
      have hslash : size ['/'] = 1 := by decide
      have := ih (by simp)
      rw [List.intercalate_cons_cons, size_append, size_append, hslash, totalSize_cons,
        List.length_cons]
      omega

lemma countP_joined (pieces : List (List Char)) (hne : pieces ≠ []) :
    (joined pieces).countP isSlash + 1 = (pieces.map (·.countP isSlash)).sum + pieces.length := by
  induction pieces with
  | nil => exact absurd rfl hne
  | cons p rest ih =>
    match rest with
    | [] => simp [joined]
    | q :: rest =>
      rw [joined] at ih ⊢
      have hslash : ['/'].countP isSlash = 1 := by decide
      have := ih (by simp)
      rw [List.intercalate_cons_cons, List.countP_append, List.countP_append, hslash, List.map_cons,
        List.sum_cons, List.length_cons]
      omega

lemma exists_joined_concat (front : List (List Char)) (last : List Char) :
    ∃ pre, joined (front ++ [last]) = pre ++ last ∧ ∀ c ∈ pre.getLast?, c = '/' := by
  induction front with
  | nil => exact ⟨[], by simp [joined], by simp⟩
  | cons p front ih =>
    obtain ⟨pre, hpre, hslash⟩ := ih
    obtain ⟨q, rest, hq⟩ : ∃ q rest, front ++ [last] = q :: rest :=
      List.exists_cons_of_ne_nil (by simp)
    refine ⟨p ++ '/' :: pre, ?_, ?_⟩
    · rw [joined] at hpre ⊢
      rw [List.cons_append, hq, List.intercalate_cons_cons, ← hq, hpre]
      simp
    · intro c hc
      rw [List.getLast?_append, List.getLast?_cons] at hc
      cases hp : pre.getLast? with
      | none =>
        rw [hp] at hc
        simpa using hc.symm
      | some d =>
        rw [hp] at hc
        rw [← hslash d hp]
        simpa using hc.symm

/-- Only the end of the last segment can be trimmed. -/
lemma joined_getLast?_iff (front : List (List Char)) (last : List Char) :
    (∀ c ∈ (joined (front ++ [last])).getLast?, isC0ControlOrSpace c = false) ↔
      ∀ c ∈ last.getLast?, isC0ControlOrSpace c = false := by
  obtain ⟨pre, hpre, hslash⟩ := exists_joined_concat front last
  rw [hpre, List.getLast?_append]
  cases hl : last.getLast? with
  | some c => rfl
  | none =>
    constructor
    · intro _ c hc
      cases hc
    · intro _ c hc
      rw [hslash c hc]
      rfl

lemma mem_joined {pieces : List (List Char)} {c : Char} (h : c ∈ joined pieces) :
    c = '/' ∨ ∃ p ∈ pieces, c ∈ p := by
  induction pieces with
  | nil => cases h
  | cons p rest ih =>
    match rest with
    | [] =>
      rw [joined, List.intercalate_singleton] at h
      exact Or.inr ⟨p, by simp, h⟩
    | q :: rest =>
      rw [joined] at ih h
      rw [List.intercalate_cons_cons, List.mem_append, List.mem_append, List.mem_singleton] at h
      rcases h with (h | h) | h
      · exact Or.inr ⟨p, by simp, h⟩
      · exact Or.inl h
      · rcases ih h with hc | ⟨r, hr, hc⟩
        · exact Or.inl hc
        · exact Or.inr ⟨r, List.mem_cons_of_mem _ hr, hc⟩

lemma subset_joined {pieces : List (List Char)} {p : List Char} (hp : p ∈ pieces) :
    p ⊆ joined pieces := by
  induction pieces with
  | nil => cases hp
  | cons q rest ih =>
    match rest with
    | [] =>
      rw [joined, List.intercalate_singleton, List.mem_singleton.mp hp]
      exact List.Subset.refl _
    | r :: rest =>
      rw [joined] at ih ⊢
      rw [List.intercalate_cons_cons]
      intro c hc
      rcases List.mem_cons.mp hp with rfl | hp
      · simp [hc]
      · simp [ih hp hc]

/-! ### Which texts survive -/

/-- Texts that parsing leaves as they are are the segments of the path made of them. -/
theorem segments_joined (pieces : List (List Char)) (hne : pieces ≠ [])
    (h : ∀ p ∈ pieces, Plain p)
    (hlast : ∀ c ∈ (joined pieces).getLast?, isC0ControlOrSpace c = false) :
    segments ('/' :: joined pieces) = pieces := by
  have htext : pathText (joined pieces) = joined pieces := by
    rw [pathText_eq_self_iff]
    refine ⟨fun c hc => ?_, hlast⟩
    rcases mem_joined hc with rfl | ⟨p, hp, hc⟩
    · decide
    · exact ⟨((h p hp).chars c hc).1, ((h p hp).chars c hc).2.1⟩
  rw [segments_slash, htext, splitOnP_joined _ hne fun p hp c hc => ((h p hp).chars c hc).2.2,
    addSegments_of_plain _ _ h, List.nil_append]

theorem percentDecode_encodeSegment (piece : List Char) :
    percentDecode (encodeSegment piece) = percentDecode (piece.flatMap String.utf8EncodeChar) :=
  percentDecode_percentEncode _

lemma sum_length_percentDecode_le (pieces : List (List Char)) :
    (pieces.map fun p => (percentDecode (encodeSegment p)).length).sum ≤ totalSize pieces ∧
      ((∃ p ∈ pieces, hasEscape (p.flatMap String.utf8EncodeChar) = true) →
        (pieces.map fun p => (percentDecode (encodeSegment p)).length).sum < totalSize pieces) := by
  induction pieces with
  | nil =>
    refine ⟨Nat.le_refl _, ?_⟩
    rintro ⟨p, hp, -⟩
    cases hp
  | cons p rest ih =>
    have hp := length_percentDecode (p.flatMap String.utf8EncodeChar)
    rw [← percentDecode_encodeSegment] at hp
    simp only [List.map_cons, List.sum_cons, totalSize_cons]
    unfold size
    refine ⟨by omega, ?_⟩
    rintro ⟨q, hq, hesc⟩
    rcases List.mem_cons.mp hq with rfl | hq
    · have := hp.2 hesc
      omega
    · have := ih.2 ⟨q, hq, hesc⟩
      omega

lemma pathText_sublist (target : List Char) : (pathText target).Sublist target :=
  ((List.takeWhile_sublist _).trans List.filter_sublist).trans
    (List.rdropWhile_prefix isC0ControlOrSpace target).sublist

/-- If the decoded segments are the texts that were joined, then no step between changed anything:
each could only have lost bytes or segments. -/
theorem plain_of_decode_eq (pieces : List (List Char)) (hne : pieces ≠ [])
    (h : (segments ('/' :: joined pieces)).map (fun p => percentDecode (encodeSegment p)) =
      pieces.map (·.flatMap String.utf8EncodeChar)) :
    (∀ p ∈ pieces, Plain p ∧ hasEscape (p.flatMap String.utf8EncodeChar) = false) ∧
      ∀ c ∈ (joined pieces).getLast?, isC0ControlOrSpace c = false := by
  have hlen := congrArg List.length h
  have hsum := congrArg (fun l => (l.map List.length).sum) h
  simp only [List.length_map, List.map_map, Function.comp_def] at hlen hsum
  change _ = totalSize pieces at hsum
  have hseg := segments_slash (joined pieces)
  have hsub := pathText_sublist (joined pieces)
  have hbody := size_le_of_sublist hsub
  have hjoin := size_joined pieces hne
  have hsplit := totalSize_splitOnP (pathText (joined pieces))
  have hadd := totalSize_addSegments [] ((pathText (joined pieces)).splitOnP isSlash)
  have haddLength := length_addSegments_le [] ((pathText (joined pieces)).splitOnP isSlash)
  have hdec := sum_length_percentDecode_le (segments ('/' :: joined pieces))
  rw [← hseg, totalSize_nil] at hadd
  rw [← hseg, List.length_nil] at haddLength
  have hkept : pathText (joined pieces) = joined pieces :=
    eq_of_sublist_of_size_le hsub (by omega)
  have htext := (pathText_eq_self_iff _).mp hkept
  rw [hkept] at hsplit hadd haddLength hseg
  have hcount := countP_joined pieces hne
  rw [length_splitOnP] at hsplit haddLength
  have hslash : ∀ p ∈ pieces, ∀ c ∈ p, isSlash c = false := by
    intro p hp c hc
    have hzero : (pieces.map (·.countP isSlash)).sum = 0 := by omega
    have hp0 : p.countP isSlash = 0 :=
      List.sum_eq_zero_iff_forall_eq_nat.mp hzero _ (List.mem_map_of_mem hp)
    simpa using List.countP_eq_zero.mp hp0 c hc
  rw [splitOnP_joined pieces hne hslash] at hadd hseg
  have hplain : ∀ p ∈ pieces, Plain p := by
    intro p hp
    have hdot : ¬(isSingleDot p = true ∨ isDoubleDot p = true) := by
      intro hdot
      have := hadd.2 ⟨p, hp, hdot⟩
      omega
    rw [not_or, Bool.not_eq_true, Bool.not_eq_true] at hdot
    refine ⟨fun c hc => ?_, hdot.1, hdot.2⟩
    have hc' := htext.1 c (subset_joined hp hc)
    exact ⟨hc'.1, hc'.2, hslash p hp c hc⟩
  refine ⟨fun p hp => ⟨hplain p hp, ?_⟩, htext.2⟩
  rw [addSegments_of_plain _ _ hplain, List.nil_append] at hseg
  rw [hseg] at hdec hsum
  by_contra hesc
  have := hdec.2 ⟨p, hp, by simpa using hesc⟩
  omega

end Url
