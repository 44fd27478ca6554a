import Parda.Lib.Json
import Parda.Lib.Text
import Parda.Lib.Utf8

/-!
# JSON as text

What one relies on in a JSON library, and the compact form that such libraries write: no
whitespace, control characters escaped. The parser here reads that form.
-/

/-- Numbers of 64 bits, and arrays and objects that are nested at most `depth` deep. -/
def Json.Fits : ℕ → Json → Prop
  | _, .null | _, .bool _ | _, .string _ => True
  | _, .number n => -2 ^ 63 ≤ n ∧ n < 2 ^ 64
  | 0, .array _ | 0, .object _ => False
  | depth + 1, .array items => ∀ j ∈ items, Json.Fits depth j
  | depth + 1, .object fields => ∀ field ∈ fields, Json.Fits depth field.2

namespace JsonCodec

variable {α β : Type} {depth : ℕ}

/-- What the codec writes is not nested deeper than `depth`. -/
def Fits (depth : ℕ) (c : JsonCodec α) : Prop := ∀ a, Json.Fits depth (c.toJson a)

lemma string_fits : string.Fits depth := by
  intro a
  cases depth <;> trivial

lemma bool_fits : bool.Fits depth := by
  intro a
  cases depth <;> trivial

lemma number_fits {n : ℕ} (h : n < 2 ^ 64) : Json.Fits depth (.number n) := by
  have hn : -2 ^ 63 ≤ (n : ℤ) ∧ (n : ℤ) < 2 ^ 64 := by omega
  cases depth <;> exact hn

lemma uint8_fits : uint8.Fits depth := by
  intro a
  have := a.toNat_lt
  exact number_fits (by omega)

lemma uint64_fits : uint64.Fits depth := by
  intro a
  exact number_fits a.toNat_lt

lemma Fits.list {c : JsonCodec α} (h : c.Fits depth) : c.list.Fits (depth + 1) := by
  intro l j hj
  obtain ⟨a, -, rfl⟩ := List.mem_map.mp hj
  exact h a

lemma Fits.vector {c : JsonCodec α} (h : c.Fits depth) (n : ℕ) :
    (c.vector n).Fits (depth + 1) := by
  intro v
  exact h.list v.toList

lemma Fits.via {c : JsonCodec β} (h : c.Fits depth) {encode : α → β} {decode : β → Option α}
    (hread : ∀ a, decode (encode a) = some a) : (c.via encode decode hread).Fits depth := by
  intro a
  exact h (encode a)

lemma Fits.skipNone {c : JsonCodec α} (h : c.Fits depth) (name : String) (value : Option α) :
    ∀ field ∈ Json.skipNone c name value, Json.Fits depth field.2 := by
  intro field hf
  obtain ⟨a, -, rfl⟩ := List.mem_map.mp hf
  exact h a

end JsonCodec

/-- JSON values as bytes, which are read back unless they are nested too deep. -/
structure JsonText (depth : ℕ) where
  render : Json → List UInt8
  parse : List UInt8 → Option Json
  parse_render : ∀ j, j.Fits depth → parse (render j) = some j

namespace JsonText

variable {α : Type} {depth : ℕ} (t : JsonText depth) (c : JsonCodec α)

def encode (a : α) : List UInt8 := t.render (c.toJson a)

def decode (bytes : List UInt8) : Option α := (t.parse bytes).bind c.ofJson

/-- What one codec writes is read by another as the tree that it is. -/
lemma decode_encode_of_fits {β : Type} (d : JsonCodec β) (h : c.Fits depth) (a : α) :
    t.decode d (t.encode c a) = d.ofJson (c.toJson a) := by
  unfold decode encode
  rw [t.parse_render _ (h a), Option.bind_some]

theorem decode_encode (h : c.Fits depth) (a : α) : t.decode c (t.encode c a) = some a := by
  rw [decode_encode_of_fits t c c h, c.round_trip]

end JsonText

namespace Json

/-! ### Strings -/

/-- The escapes of one letter. -/
def shortEscapes : List (Char × Char) :=
  [('"', '"'), ('\\', '\\'), ('b', '\x08'), ('f', '\x0c'), ('n', '\n'), ('r', '\r'), ('t', '\t')]

def escapeChar (c : Char) : List Char :=
  match shortEscapes.find? (fun e => e.2 = c) with
  | some (letter, _) => ['\\', letter]
  | none =>
    if c.toNat < 0x20 then
      ['\\', 'u', '0', '0', Nat.digitChar (c.toNat / 16), Nat.digitChar (c.toNat % 16)]
    else [c]

def hexValue (c : Char) : Option ℕ :=
  if '0' ≤ c ∧ c ≤ '9' then some (c.toNat - 48)
  else if 'a' ≤ c ∧ c ≤ 'f' then some (c.toNat - 87)
  else if 'A' ≤ c ∧ c ≤ 'F' then some (c.toNat - 55)
  else none

/-- One character of a string, escaped or not. -/
def unescape : List Char → Option (Char × List Char)
  | [] => none
  | c :: rest =>
    if c = '\\' then
      match rest with
      | 'u' :: digits =>
        (digits.take 4).mapM hexValue |>.bind fun values =>
          if values.length = 4 then
            some (Char.ofNat (values.foldl (fun n v => 16 * n + v) 0), digits.drop 4)
          else none
      | letter :: rest =>
        (shortEscapes.find? fun e => e.1 = letter).map fun e => (e.2, rest)
      | [] => none
    else some (c, rest)

/-- The rest of a string after its opening quote, and what follows it. -/
def parseString : ℕ → List Char → Option (List Char × List Char)
  | 0, _ => none
  | fuel + 1, s =>
    if s.head? = some '"' then some ([], s.tail)
    else (unescape s).bind fun (c, rest) =>
      (parseString fuel rest).map fun (cs, rest) => (c :: cs, rest)

def renderString (s : String) : List Char := s.toList.flatMap escapeChar ++ ['"']

lemma hexValue_digitChar {n : ℕ} (h : n < 16) : hexValue (Nat.digitChar n) = some n := by
  have hall : ∀ k : Fin 16, hexValue (Nat.digitChar k.val) = some k.val := by decide
  exact hall ⟨n, h⟩

lemma unescape_escapeChar (c : Char) (rest : List Char) :
    unescape (escapeChar c ++ rest) = some (c, rest) := by
  unfold escapeChar
  split
  · rename_i letter c' hfind
    have hc : c' = c := by simpa using List.find?_some hfind
    have hmem := List.mem_of_find?_eq_some hfind
    subst hc
    simp only [shortEscapes, List.mem_cons, Prod.mk.injEq, List.not_mem_nil, or_false] at hmem
    rcases hmem with ⟨rfl, rfl⟩ | ⟨rfl, rfl⟩ | ⟨rfl, rfl⟩ | ⟨rfl, rfl⟩ | ⟨rfl, rfl⟩ | ⟨rfl, rfl⟩ |
      ⟨rfl, rfl⟩ <;> rfl
  · rename_i hfind
    split
    · rename_i hlt
      have hhi := hexValue_digitChar (show c.toNat / 16 < 16 by omega)
      have hlo := hexValue_digitChar (show c.toNat % 16 < 16 by omega)
      have hzero : hexValue '0' = some 0 := by decide
      have hc : 16 * (c.toNat / 16) + c.toNat % 16 = c.toNat := by omega
      simp [unescape, hhi, hlo, hzero, hc]
    · rw [List.find?_eq_none] at hfind
      have hslash : c ≠ '\\' := by
        intro h
        exact hfind ('\\', '\\') (by decide) (by simp [h])
      exact if_neg hslash

lemma escapeChar_head (c : Char) : (escapeChar c).head? ≠ some '"' := by
  unfold escapeChar
  split
  · simp
  · rename_i hfind
    split
    · simp
    · rw [List.find?_eq_none] at hfind
      intro h
      exact hfind ('"', '"') (by decide) (by simpa using h.symm)

lemma escapeChar_ne_nil (c : Char) : escapeChar c ≠ [] := by
  unfold escapeChar
  split
  · simp
  · split <;> simp

lemma parseString_renderString (cs : List Char) {fuel : ℕ} (h : cs.length < fuel)
    (rest : List Char) :
    parseString fuel (cs.flatMap escapeChar ++ '"' :: rest) = some (cs, rest) := by
  induction cs generalizing fuel with
  | nil =>
    match fuel with
    | fuel + 1 => rfl
  | cons c cs ih =>
    match fuel with
    | fuel + 1 =>
      have hhead : (escapeChar c ++ (cs.flatMap escapeChar ++ '"' :: rest)).head? ≠ some '"' := by
        rw [List.head?_append_of_ne_nil _ (escapeChar_ne_nil c)]
        exact escapeChar_head c
      rw [List.flatMap_cons, List.append_assoc, parseString, if_neg hhead, unescape_escapeChar,
        Option.bind_some]
      dsimp only
      rw [ih (by simpa using h)]
      rfl

lemma length_lt_renderString (s : String) : s.toList.length < (renderString s).length := by
  unfold renderString
  induction s.toList with
  | nil => decide
  | cons c cs ih =>
    have := List.length_pos_iff.mpr (escapeChar_ne_nil c)
    rw [List.flatMap_cons, List.append_assoc, List.length_append, List.length_cons]
    omega

lemma parseString_append (s : String) {fuel : ℕ} (h : (renderString s).length ≤ fuel)
    (rest : List Char) : parseString fuel (renderString s ++ rest) = some (s.toList, rest) := by
  have hlt := length_lt_renderString s
  have hparse := parseString_renderString s.toList (show s.toList.length < fuel by omega) rest
  unfold renderString
  rw [List.append_assoc]
  exact hparse

/-! ### Lists -/

/-- Elements with commas between them, up to the closing character. -/
def renderSeq {α : Type} (render : α → List Char) (close : Char) : List α → List Char
  | [] => []
  | a :: rest => render a ++ (if rest.isEmpty then close else ',') :: renderSeq render close rest

def parseSeq {α : Type} (parse : List Char → Option (α × List Char)) (close : Char) :
    ℕ → List Char → Option (List α × List Char)
  | 0, _ => none
  | fuel + 1, s =>
    match parse s with
    | some (a, c :: rest) =>
      if c = close then some ([a], rest)
      else if c = ',' then
        (parseSeq parse close fuel rest).map fun (l, rest) => (a :: l, rest)
      else none
    | _ => none

lemma parseSeq_renderSeq {α : Type} {render : α → List Char}
    {parse : List Char → Option (α × List Char)} {close : Char} (hclose : close ≠ ',')
    {l : List α} (hne : l ≠ []) {fuel : ℕ} (hfuel : l.length ≤ fuel)
    (h : ∀ a ∈ l, ∀ c rest, c = close ∨ c = ',' →
      parse (render a ++ c :: rest) = some (a, c :: rest)) (rest : List Char) :
    parseSeq parse close fuel (renderSeq render close l ++ rest) = some (l, rest) := by
  induction l generalizing fuel with
  | nil => exact absurd rfl hne
  | cons a l ih =>
    match fuel with
    | fuel + 1 =>
      rw [renderSeq, List.append_assoc, List.cons_append, parseSeq]
      match l with
      | [] =>
        rw [List.isEmpty_nil, if_pos rfl, h a List.mem_cons_self close _ (Or.inl rfl)]
        simp only [if_true, renderSeq, List.nil_append]
      | b :: l =>
        rw [List.isEmpty_cons, if_neg Bool.false_ne_true,
          h a List.mem_cons_self ',' _ (Or.inr rfl)]
        simp only [if_neg hclose.symm, if_true]
        rw [ih (by simp) (by simpa using hfuel)
          (fun x hx => h x (List.mem_cons_of_mem _ hx))]
        rfl

/-! ### Values -/

/-- A number ends where no digit follows. -/
def NoDigit (rest : List Char) : Prop := ∀ c ∈ rest.head?, c.isDigit = false

def parseNat (s : List Char) : Option (ℕ × List Char) :=
  if s.takeWhile Char.isDigit = [] then none
  else some (Nat.ofDigitChars 10 (s.takeWhile Char.isDigit) 0, s.dropWhile Char.isDigit)

def parseNumber (s : List Char) : Option (Json × List Char) :=
  if s.head? = some '-' then (parseNat s.tail).map fun (n, rest) => (.number (-n), rest)
  else (parseNat s).map fun (n, rest) => (.number n, rest)

lemma takeWhile_digits {ds rest : List Char} (hds : ∀ c ∈ ds, c.isDigit = true)
    (hrest : NoDigit rest) :
    (ds ++ rest).takeWhile Char.isDigit = ds ∧ (ds ++ rest).dropWhile Char.isDigit = rest := by
  have htake : rest.takeWhile Char.isDigit = [] ∧ rest.dropWhile Char.isDigit = rest := by
    match rest with
    | [] => exact ⟨rfl, rfl⟩
    | c :: rest =>
      have hc : c.isDigit = false := hrest c rfl
      simp [hc]
  rw [List.takeWhile_append_of_pos hds, List.dropWhile_append_of_pos hds, htake.1, htake.2,
    List.append_nil]
  exact ⟨rfl, rfl⟩

lemma parseNat_toDigits (n : ℕ) {rest : List Char} (h : NoDigit rest) :
    parseNat (Nat.toDigits 10 n ++ rest) = some (n, rest) := by
  have hds := takeWhile_digits (fun c hc => Text.isDigit_of_mem_toDigits (n := n) hc) h
  unfold parseNat
  rw [hds.1, hds.2, if_neg Nat.toDigits_ne_nil, Nat.ofDigitChars_ten_toDigits]

lemma parseNumber_decimal (n : ℤ) {rest : List Char} (h : NoDigit rest) :
    parseNumber (Text.decimal n ++ rest) = some (.number n, rest) := by
  unfold parseNumber
  by_cases hn : 0 ≤ n
  · rw [Text.decimal_of_nonneg hn]
    have hhead : (Nat.toDigits 10 n.toNat ++ rest).head? ≠ some '-' := by
      rw [List.head?_append_of_ne_nil _ Nat.toDigits_ne_nil]
      intro hd
      have := Text.isDigit_of_mem_toDigits (List.mem_of_mem_head? hd)
      revert this
      decide
    rw [if_neg hhead, parseNat_toDigits _ h, Option.map_some]
    dsimp only
    rw [Int.toNat_of_nonneg hn]
  · rw [Text.decimal_of_neg (Int.not_le.mp hn)]
    rw [List.cons_append, List.head?_cons, if_pos rfl, List.tail_cons, parseNat_toDigits _ h,
      Option.map_some]
    dsimp only
    rw [Int.toNat_of_nonneg (by omega), Int.neg_neg]

def expect (word : List Char) (j : Json) (s : List Char) : Option (Json × List Char) :=
  if word.isPrefixOf s then some (j, s.drop word.length) else none

/-- A name, a colon and a value. -/
def parseField (parse : List Char → Option (Json × List Char)) (fuel : ℕ) (s : List Char) :
    Option ((String × Json) × List Char) :=
  if s.head? = some '"' then
    (parseString fuel s.tail).bind fun (name, rest) =>
      if rest.head? = some ':' then
        (parse rest.tail).map fun (j, rest) => ((String.ofList name, j), rest)
      else none
  else none

def parseValue : ℕ → List Char → Option (Json × List Char)
  | 0, _ => none
  | _ + 1, [] => none
  | fuel + 1, c :: rest =>
    if c = 'n' then expect ['u', 'l', 'l'] .null rest
    else if c = 't' then expect ['r', 'u', 'e'] (.bool true) rest
    else if c = 'f' then expect ['a', 'l', 's', 'e'] (.bool false) rest
    else if c = '"' then
      (parseString fuel rest).map fun (cs, rest) => (.string (String.ofList cs), rest)
    else if c = '[' then
      if rest.head? = some ']' then some (.array [], rest.tail)
      else (parseSeq (parseValue fuel) ']' fuel rest).map fun (items, rest) => (.array items, rest)
    else if c = '{' then
      if rest.head? = some '}' then some (.object [], rest.tail)
      else (parseSeq (parseField (parseValue fuel) fuel) '}' fuel rest).map
        fun (fields, rest) => (.object fields, rest)
    else parseNumber (c :: rest)

mutual

def renderValue : Json → List Char
  | .null => ['n', 'u', 'l', 'l']
  | .bool true => ['t', 'r', 'u', 'e']
  | .bool false => ['f', 'a', 'l', 's', 'e']
  | .number n => Text.decimal n
  | .string s => '"' :: renderString s
  | .array items => '[' :: (if items.isEmpty then [']'] else renderItems items)
  | .object fields => '{' :: (if fields.isEmpty then ['}'] else renderFields fields)

def renderItems : List Json → List Char
  | [] => []
  | j :: rest => renderValue j ++ (if rest.isEmpty then ']' else ',') :: renderItems rest

def renderFields : List (String × Json) → List Char
  | [] => []
  | (name, j) :: rest =>
    ('"' :: renderString name ++ ':' :: renderValue j) ++
      (if rest.isEmpty then '}' else ',') :: renderFields rest

end

def renderField (field : String × Json) : List Char :=
  '"' :: renderString field.1 ++ ':' :: renderValue field.2

lemma renderItems_eq (items : List Json) : renderItems items = renderSeq renderValue ']' items := by
  induction items with
  | nil => rfl
  | cons j rest ih => rw [renderItems, renderSeq, ih]

lemma renderFields_eq (fields : List (String × Json)) :
    renderFields fields = renderSeq renderField '}' fields := by
  induction fields with
  | nil => rfl
  | cons field rest ih => rw [renderFields, renderSeq, ih]; rfl

section Length

variable {α : Type} {render : α → List Char} {close : Char} {l : List α}

lemma length_lt_renderSeq {a : α} (h : a ∈ l) :
    (render a).length < (renderSeq render close l).length := by
  induction l with
  | nil => cases h
  | cons b l ih =>
    rw [renderSeq, List.length_append, List.length_cons]
    rcases List.mem_cons.mp h with rfl | h
    · omega
    · have := ih h
      omega

lemma length_le_renderSeq : l.length ≤ (renderSeq render close l).length := by
  induction l with
  | nil => exact Nat.le_refl _
  | cons b l ih =>
    rw [renderSeq, List.length_append, List.length_cons, List.length_cons]
    omega

end Length

lemma exists_decimal (n : ℤ) :
    ∃ c digits, Text.decimal n = c :: digits ∧ (c = '-' ∨ c.isDigit = true) := by
  by_cases hn : 0 ≤ n
  · rw [Text.decimal_of_nonneg hn]
    obtain ⟨c, digits, h⟩ := List.exists_cons_of_ne_nil (Nat.toDigits_ne_nil (b := 10) (n := n.toNat))
    refine ⟨c, digits, h, Or.inr ?_⟩
    apply Text.isDigit_of_mem_toDigits (n := n.toNat)
    rw [h]
    exact List.mem_cons_self
  · rw [Text.decimal_of_neg (Int.not_le.mp hn)]
    exact ⟨'-', _, rfl, Or.inl rfl⟩

lemma parseValue_decimal (n : ℤ) (fuel : ℕ) {rest : List Char} (h : NoDigit rest) :
    parseValue (fuel + 1) (Text.decimal n ++ rest) = some (.number n, rest) := by
  have hnumber := parseNumber_decimal n h
  obtain ⟨c, digits, hc, hfirst⟩ := exists_decimal n
  rw [hc, List.cons_append] at hnumber ⊢
  have hne : ∀ d : Char, d ≠ '-' → d.isDigit = false → c ≠ d := by
    rintro d hd hdigit rfl
    rcases hfirst with rfl | hfirst
    · exact hd rfl
    · rw [hfirst] at hdigit
      cases hdigit
  rw [parseValue, if_neg (hne 'n' (by decide) (by decide)), if_neg (hne 't' (by decide) (by decide)),
    if_neg (hne 'f' (by decide) (by decide)), if_neg (hne '"' (by decide) (by decide)),
    if_neg (hne '[' (by decide) (by decide)), if_neg (hne '{' (by decide) (by decide)), hnumber]

/-- No value begins like the end of an array. -/
lemma head_renderValue (j : Json) (rest : List Char) :
    (renderValue j ++ rest).head? ≠ some ']' := by
  match j with
  | .null => simp [renderValue]
  | .bool true => simp [renderValue]
  | .bool false => simp [renderValue]
  | .number n =>
    obtain ⟨c, digits, hc, hfirst⟩ := exists_decimal n
    rw [renderValue, hc, List.cons_append, List.head?_cons, Ne, Option.some.injEq]
    rintro rfl
    revert hfirst
    decide
  | .string s => simp [renderValue]
  | .array items => simp [renderValue]
  | .object fields => simp [renderValue]

lemma parseField_renderField {parse : List Char → Option (Json × List Char)} {fuel : ℕ}
    {field : String × Json} {rest : List Char} (hname : (renderString field.1).length ≤ fuel)
    (hvalue : parse (renderValue field.2 ++ rest) = some (field.2, rest)) :
    parseField parse fuel (renderField field ++ rest) = some (field, rest) := by
  unfold parseField renderField
  rw [List.append_assoc, List.cons_append, List.cons_append, List.head?_cons, if_pos rfl,
    List.tail_cons, parseString_append _ hname, Option.bind_some]
  dsimp only
  rw [List.head?_cons, if_pos rfl, List.tail_cons, hvalue, Option.map_some, String.ofList_toList]

lemma length_renderValue_pos (j : Json) : 0 < (renderValue j).length := by
  match j with
  | .bool true => simp [renderValue]
  | .bool false => simp [renderValue]
  | .number n =>
    obtain ⟨c, digits, hc, -⟩ := exists_decimal n
    simp [renderValue, hc]
  | .null | .string s | .array items | .object fields => simp [renderValue]

/-- The value is read back when what stands in an array or after a field's name follows it. -/
def ReadsInside (fuel : ℕ) (j : Json) : Prop :=
  ∀ c rest, c = ']' ∨ c = '}' ∨ c = ',' →
    parseValue fuel (renderValue j ++ c :: rest) = some (j, c :: rest)

lemma parseValue_array {fuel : ℕ} (items : List Json)
    (hfuel : (renderValue (.array items)).length ≤ fuel + 1)
    (h : ∀ j ∈ items, (renderValue j).length ≤ fuel → ReadsInside fuel j) (rest : List Char) :
    parseValue (fuel + 1) (renderValue (.array items) ++ rest) = some (.array items, rest) := by
  match items with
  | [] => rfl
  | item :: items =>
    rw [renderValue, List.isEmpty_cons, if_neg Bool.false_ne_true, renderItems_eq] at hfuel ⊢
    rw [List.length_cons] at hfuel
    have hcount := @length_le_renderSeq _ renderValue ']' (item :: items)
    have hitems : ∀ j ∈ item :: items, ∀ c rest, c = ']' ∨ c = ',' →
        parseValue fuel (renderValue j ++ c :: rest) = some (j, c :: rest) := by
      intro j hj c rest hc
      have := @length_lt_renderSeq _ renderValue ']' _ _ hj
      exact h j hj (by omega) c rest (hc.imp_right Or.inr)
    have hhead : (renderSeq renderValue ']' (item :: items) ++ rest).head? ≠ some ']' := by
      rw [renderSeq, List.append_assoc]
      exact head_renderValue item _
    rw [List.cons_append, parseValue]
    simp only [Char.reduceEq, if_false, if_true]
    rw [if_neg hhead, parseSeq_renderSeq (by decide) (by simp) (by omega) hitems, Option.map_some]

lemma parseValue_object {fuel : ℕ} (fields : List (String × Json))
    (hfuel : (renderValue (.object fields)).length ≤ fuel + 1)
    (h : ∀ field ∈ fields, (renderValue field.2).length ≤ fuel → ReadsInside fuel field.2)
    (rest : List Char) :
    parseValue (fuel + 1) (renderValue (.object fields) ++ rest) = some (.object fields, rest) := by
  match fields with
  | [] => rfl
  | field :: fields =>
    rw [renderValue, List.isEmpty_cons, if_neg Bool.false_ne_true, renderFields_eq] at hfuel ⊢
    rw [List.length_cons] at hfuel
    have hcount := @length_le_renderSeq _ renderField '}' (field :: fields)
    have hfields : ∀ f ∈ field :: fields, ∀ c rest, c = '}' ∨ c = ',' →
        parseField (parseValue fuel) fuel (renderField f ++ c :: rest) = some (f, c :: rest) := by
      intro f hf c rest hc
      have := @length_lt_renderSeq _ renderField '}' _ _ hf
      have hlength : (renderField f).length =
          (renderString f.1).length + (renderValue f.2).length + 2 := by
        simp [renderField]
        omega
      exact parseField_renderField (by omega) (h f hf (by omega) c rest (Or.inr hc))
    have hhead : (renderSeq renderField '}' (field :: fields) ++ rest).head? ≠ some '}' := by
      rw [renderSeq, List.append_assoc]
      simp [renderField]
    rw [List.cons_append, parseValue]
    simp only [Char.reduceEq, if_false, if_true]
    rw [if_neg hhead, parseSeq_renderSeq (by decide) (by simp) (by omega) hfields, Option.map_some]

theorem parseValue_renderValue {fuel : ℕ} {j : Json} (hfuel : (renderValue j).length ≤ fuel)
    {rest : List Char} (hrest : NoDigit rest) :
    parseValue fuel (renderValue j ++ rest) = some (j, rest) := by
  induction fuel generalizing j rest with
  | zero => exact absurd (length_renderValue_pos j) (by omega)
  | succ fuel ih =>
    have hinside : ∀ j : Json, (renderValue j).length ≤ fuel → ReadsInside fuel j := by
      intro j hj c rest hc
      apply ih hj
      rintro d ⟨⟩
      rcases hc with rfl | rfl | rfl <;> decide
    match j with
    | .null => rfl
    | .bool true => rfl
    | .bool false => rfl
    | .number n => exact parseValue_decimal n fuel hrest
    | .string s =>
      rw [renderValue, List.length_cons] at hfuel
      rw [renderValue, List.cons_append, parseValue]
      simp only [Char.reduceEq, if_false, if_true]
      rw [parseString_append s (by omega), Option.map_some, String.ofList_toList]
    | .array items => exact parseValue_array items hfuel (fun j _ => hinside j) rest
    | .object fields => exact parseValue_object fields hfuel (fun field _ => hinside field.2) rest

/-- A text that is one value and nothing else. -/
def parseText (s : List Char) : Option Json :=
  match parseValue s.length s with
  | some (j, []) => some j
  | _ => none

lemma parseText_renderValue (j : Json) : parseText (renderValue j) = some j := by
  have h := parseValue_renderValue (Nat.le_refl (renderValue j).length)
    (show NoDigit [] from nofun)
  rw [List.append_nil] at h
  unfold parseText
  rw [h]

end Json

/-- The compact form, in UTF-8. -/
def JsonText.compact (depth : ℕ) : JsonText depth where
  render j := Utf8.encode (String.ofList j.renderValue)
  parse bytes := (Utf8.decode bytes).bind fun s => Json.parseText s.toList
  parse_render j _ := by
    rw [Utf8.decode_encode, Option.bind_some, String.toList_ofList, Json.parseText_renderValue]
