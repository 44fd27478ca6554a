import Mathlib.Data.Int.Basic
import Mathlib.Data.Vector.Basic

/-!
# JSON values

JSON trees, codecs of types into them, and how a record's fields are read from an object: a field
that is there twice is an error, one that no field asks for is skipped, and what a missing one
means is up to the field. Numbers are integers.
-/

inductive Json where
  | null
  | bool (b : Bool)
  | number (n : ℤ)
  | string (s : String)
  | array (items : List Json)
  | object (fields : List (String × Json))

/-- A type's form in JSON, which is read back. -/
structure JsonCodec (α : Type) where
  toJson : α → Json
  ofJson : Json → Option α
  round_trip : ∀ a, ofJson (toJson a) = some a

namespace JsonCodec

def string : JsonCodec String where
  toJson s := .string s
  ofJson
    | .string s => some s
    | _ => none
  round_trip _ := rfl

def bool : JsonCodec Bool where
  toJson b := .bool b
  ofJson
    | .bool b => some b
    | _ => none
  round_trip _ := rfl

/-- An unsigned integer of one byte. -/
def uint8 : JsonCodec UInt8 where
  toJson n := .number n.toNat
  ofJson
    | .number n => if 0 ≤ n ∧ n < 2 ^ 8 then some (UInt8.ofNat n.toNat) else none
    | _ => none
  round_trip n := by
    have := n.toNat_lt
    simp only
    rw [if_pos (by omega), Int.toNat_natCast, UInt8.ofNat_toNat]

/-- An unsigned integer of eight bytes. -/
def uint64 : JsonCodec UInt64 where
  toJson n := .number n.toNat
  ofJson
    | .number n => if 0 ≤ n ∧ n < 2 ^ 64 then some (UInt64.ofNat n.toNat) else none
    | _ => none
  round_trip n := by
    have := n.toNat_lt
    simp only
    rw [if_pos (by omega), Int.toNat_natCast, UInt64.ofNat_toNat]

variable {α β : Type}

/-- Item by item, what one codec writes is what another reads. -/
lemma mapM_ofJson (c : JsonCodec α) (d : JsonCodec β) {f : α → β}
    (h : ∀ a, d.ofJson (c.toJson a) = some (f a)) (l : List α) :
    (l.map c.toJson).mapM d.ofJson = some (l.map f) := by
  induction l with
  | nil => rfl
  | cons a l ih => rw [List.map_cons, List.mapM_cons, h, ih]; rfl

def list (c : JsonCodec α) : JsonCodec (List α) where
  toJson l := .array (l.map c.toJson)
  ofJson
    | .array items => items.mapM c.ofJson
    | _ => none
  round_trip l := by
    simp only
    rw [c.mapM_ofJson c c.round_trip, List.map_id']

/-- A list of a fixed length. -/
def vector (c : JsonCodec α) (n : ℕ) : JsonCodec (List.Vector α n) where
  toJson v := c.list.toJson v.toList
  ofJson j := (c.list.ofJson j).bind fun l => if h : l.length = n then some ⟨l, h⟩ else none
  round_trip v := by
    rw [c.list.round_trip, Option.bind_some, dif_pos v.toList_length]
    rfl

/-- A type read through another one. -/
def via (c : JsonCodec β) (encode : α → β) (decode : β → Option α)
    (h : ∀ a, decode (encode a) = some a) : JsonCodec α where
  toJson a := c.toJson (encode a)
  ofJson j := (c.ofJson j).bind decode
  round_trip a := by rw [c.round_trip, Option.bind_some, h]

end JsonCodec

namespace Json

variable {α : Type}

/-- What an object has under a name: nothing at all, nothing, or one value. -/
def lookup (name : String) (fields : List (String × Json)) : Option (Option Json) :=
  match fields.filter (fun field => field.1 = name) with
  | [] => some none
  | [field] => some (some field.2)
  | _ => none

/-- A field that must be there. -/
def required (c : JsonCodec α) (name : String) (fields : List (String × Json)) : Option α :=
  (lookup name fields).bind fun found => found.bind c.ofJson

/-- A field that stands for a value when it is missing. -/
def withDefault (c : JsonCodec α) (name : String) (value : α) (fields : List (String × Json)) :
    Option α :=
  (lookup name fields).bind fun found =>
    match found with
    | none => some value
    | some j => c.ofJson j

/-- A field that may be missing or null. -/
def nullable (c : JsonCodec α) (name : String) (fields : List (String × Json)) :
    Option (Option α) :=
  (lookup name fields).bind fun found =>
    match found with
    | none => some none
    | some .null => some none
    | some j => (c.ofJson j).map some

/-- A field that is written only when it has a value. -/
def skipNone (c : JsonCodec α) (name : String) (value : Option α) : List (String × Json) :=
  value.toList.map fun a => (name, c.toJson a)

section Lookup

variable {name : String} {fields fields' : List (String × Json)}

@[simp] lemma lookup_nil (name : String) : lookup name [] = some none := rfl

@[simp] lemma lookup_cons_of_ne {name' : String} (h : name' ≠ name) (j : Json) :
    lookup name ((name', j) :: fields) = lookup name fields := by
  unfold lookup
  rw [List.filter_cons_of_neg (by simpa using h)]

@[simp] lemma lookup_cons_self (h : lookup name fields = some none) (j : Json) :
    lookup name ((name, j) :: fields) = some (some j) := by
  unfold lookup at h ⊢
  rw [List.filter_cons_of_pos (by simp)]
  split at h
  · rename_i hnil
    rw [hnil]
  · cases h
  · cases h

/-- Names that are not there are not found. -/
lemma lookup_of_forall_ne (h : ∀ field ∈ fields, field.1 ≠ name) :
    lookup name fields = some none := by
  unfold lookup
  rw [List.filter_eq_nil_iff.mpr (fun field hf => by simpa using h field hf)]

lemma lookup_filter {p : String → Bool} (h : p name = true) :
    lookup name (fields.filter fun field => p field.1) = lookup name fields := by
  unfold lookup
  rw [List.filter_filter]
  congr 2
  funext field
  by_cases hname : field.1 = name
  · simp [hname, h]
  · simp [hname]

variable (c : JsonCodec α) {value : Option α}

lemma required_of_lookup {a : α} (h : lookup name fields = some (some (c.toJson a))) :
    required c name fields = some a := by
  unfold required
  rw [h, Option.bind_some, Option.bind_some, c.round_trip]

lemma withDefault_of_lookup {a : α} (h : lookup name fields = some (some (c.toJson a)))
    (default : α) : withDefault c name default fields = some a := by
  unfold withDefault
  rw [h, Option.bind_some]
  exact c.round_trip a

lemma withDefault_of_missing (h : lookup name fields = some none) (default : α) :
    withDefault c name default fields = some default := by
  unfold withDefault
  rw [h, Option.bind_some]

@[simp] lemma lookup_skipNone_append_of_ne {name' : String} (h : name' ≠ name) :
    lookup name (skipNone c name' value ++ fields) = lookup name fields := by
  cases value with
  | none => rfl
  | some a => exact lookup_cons_of_ne h _

@[simp] lemma lookup_skipNone_append_self (h : lookup name fields = some none) :
    lookup name (skipNone c name value ++ fields) = some (value.map c.toJson) := by
  cases value with
  | none => exact h
  | some a => exact lookup_cons_self h _

@[simp] lemma lookup_skipNone_of_ne {name' : String} (h : name' ≠ name) :
    lookup name (skipNone c name' value) = some none := by
  cases value with
  | none => rfl
  | some a => exact lookup_cons_of_ne h _

@[simp] lemma lookup_skipNone_self :
    lookup name (skipNone c name value) = some (value.map c.toJson) := by
  cases value with
  | none => rfl
  | some a => exact lookup_cons_self rfl _

/-- A field that was skipped when empty is read back, if its form is never null. -/
lemma nullable_of_lookup (hnull : ∀ a, c.toJson a ≠ .null)
    (h : lookup name fields = some (value.map c.toJson)) : nullable c name fields = some value := by
  unfold nullable
  rw [h, Option.bind_some]
  cases value with
  | none => rfl
  | some a =>
    rw [Option.map_some]
    split
    · rename_i hnone
      cases hnone
    · rename_i hj
      exact absurd (Option.some.inj hj) (hnull a)
    · rename_i j _ hj
      rw [← Option.some.inj hj, c.round_trip, Option.map_some]

end Lookup

end Json
