import Mathlib.Algebra.Group.Nat.Defs
import Mathlib.Data.Int.Basic
import Mathlib.Data.List.Infix
import Mathlib.Tactic.Lemma

/-!
# Text

Strings as a managed runtime has them: search for a piece from the end, and 32-bit integers
in decimal. Which characters count as digits is a parameter, as runtimes accept more than
the ten of ASCII.
-/

namespace Text

section Search

variable {α : Type*} [DecidableEq α]

def startsWith (s piece : List α) : Bool := piece.isPrefixOf s

lemma startsWith_iff {s piece : List α} : startsWith s piece = true ↔ piece <+: s :=
  List.isPrefixOf_iff_prefix

/-- The index of the last occurrence of a piece. -/
def lastIndexOf (piece : List α) : List α → Option ℕ
  | [] => if piece = [] then some 0 else none
  | a :: s =>
    match lastIndexOf piece s with
    | some i => some (i + 1)
    | none => if startsWith (a :: s) piece then some 0 else none

variable {piece s : List α}

lemma infix_of_lastIndexOf {i : ℕ} (h : lastIndexOf piece s = some i) : piece <:+: s := by
  induction s generalizing i with
  | nil =>
    unfold lastIndexOf at h
    split at h
    · rename_i hpiece
      rw [hpiece]
    · cases h
  | cons a s ih =>
    unfold lastIndexOf at h
    split at h
    · rename_i i' hrest
      exact (ih hrest).trans (List.suffix_cons a s).isInfix
    · split at h
      · rename_i hstart
        exact (startsWith_iff.mp hstart).isInfix
      · cases h

lemma lastIndexOf_append {i : ℕ} (h : lastIndexOf piece s = some i) (l : List α) :
    lastIndexOf piece (l ++ s) = some (l.length + i) := by
  induction l with
  | nil => simpa using h
  | cons a l ih =>
    rw [List.cons_append]
    unfold lastIndexOf
    rw [ih]
    simp only [List.length_cons]
    congr 1
    omega

/-- A doubled separator is found at its last place in front of a text without it. -/
lemma lastIndexOf_double {a : α} (l : List α) {rest : List α} (h : a ∉ rest) :
    lastIndexOf [a, a] (l ++ [a, a] ++ rest) = some l.length := by
  have hrest : lastIndexOf [a, a] (a :: rest) = none := by
    by_contra hsome
    obtain ⟨i, hi⟩ := Option.ne_none_iff_exists'.mp hsome
    have hcount := (infix_of_lastIndexOf hi).sublist.count_le a
    rw [List.count_cons_self, List.count_cons_self, List.count_cons_self,
      List.count_eq_zero_of_not_mem h] at hcount
    simp at hcount
  have hhead : lastIndexOf [a, a] (a :: a :: rest) = some 0 := by
    rw [lastIndexOf, hrest]
    simp [startsWith]
  have happend := lastIndexOf_append hhead l
  rw [List.append_assoc]
  simpa using happend

omit [DecidableEq α] in
/-- A piece that ends with a character no text has is at the start of both or of neither. -/
lemma append_prefix_append_iff {a : α} (l l' : List α) {rest : List α} (h : a ∉ rest) :
    l ++ [a] <+: l' ++ [a] ++ rest ↔ l ++ [a] <+: l' ++ [a] := by
  constructor
  · intro hpre
    by_cases hle : (l ++ [a]).length ≤ (l' ++ [a]).length
    · exact List.prefix_of_prefix_length_le hpre (List.prefix_append _ _) hle
    · exfalso
      have hlong : (l' ++ [a]).length ≤ (l ++ [a]).length := by omega
      obtain ⟨middle, hmiddle⟩ :=
        List.prefix_of_prefix_length_le (List.prefix_append _ rest) hpre hlong
      rw [← hmiddle, List.prefix_append_right_inj] at hpre
      have hne : middle ≠ [] := by
        rintro rfl
        rw [← hmiddle, List.append_nil] at hle
        exact hle le_rfl
      have hlast : middle.getLast hne = a := by
        have := congrArg List.getLast? hmiddle
        rw [List.getLast?_append_of_ne_nil _ hne, List.getLast?_concat,
          List.getLast?_eq_getLast_of_ne_nil hne] at this
        exact Option.some.inj this
      apply h
      apply hpre.subset
      rw [← hlast]
      exact List.getLast_mem hne
  · intro hpre
    exact hpre.trans (List.prefix_append _ _)

end Search

section Decimal

variable (digit : Char → Option ℕ)

/-- The ten digits have their values. -/
def AsciiDigits : Prop := ∀ c : Char, c.isDigit = true → digit c = some (c.toNat - '0'.toNat)

/-- The value of a non-empty text of digits. -/
def number (s : List Char) : Option ℕ :=
  if s = [] then none else s.foldlM (fun value c => (digit c).map (10 * value + ·)) 0

/-- A 32-bit integer, with an optional sign. -/
def toIntOrNull : List Char → Option Int32
  | '-' :: s => (number digit s).bind fun n =>
    if n ≤ 2 ^ 31 then some (Int32.ofInt (-n)) else none
  | '+' :: s => (number digit s).bind fun n =>
    if n < 2 ^ 31 then some (Int32.ofInt n) else none
  | s => (number digit s).bind fun n => if n < 2 ^ 31 then some (Int32.ofInt n) else none

variable {digit}

lemma foldlM_digits (h : AsciiDigits digit) {s : List Char} (hs : ∀ c ∈ s, c.isDigit = true)
    (value : ℕ) :
    s.foldlM (fun value c => (digit c).map (10 * value + ·)) value =
      some (Nat.ofDigitChars 10 s value) := by
  induction s generalizing value with
  | nil => simp
  | cons c s ih =>
    rw [List.forall_mem_cons] at hs
    rw [List.foldlM_cons, h c hs.1, Nat.ofDigitChars_cons]
    exact ih hs.2 _

lemma isDigit_of_mem_toDigits {n : ℕ} {c : Char} (h : c ∈ Nat.toDigits 10 n) : c.isDigit = true :=
  Nat.isDigit_of_mem_toDigits (by decide) (by decide) h

lemma number_toDigits (h : AsciiDigits digit) (n : ℕ) : number digit (Nat.toDigits 10 n) = some n := by
  unfold number
  rw [if_neg Nat.toDigits_ne_nil, foldlM_digits h fun c hc => isDigit_of_mem_toDigits hc,
    Nat.ofDigitChars_ten_toDigits]

lemma toDigits_injective : Function.Injective (Nat.toDigits 10) := by
  intro m n h
  have hback := congrArg (fun digits => Nat.ofDigitChars 10 digits 0) h
  simpa only [Nat.ofDigitChars_ten_toDigits] using hback

/-- The decimal of an integer. -/
def decimal (n : ℤ) : List Char := n.repr.toList

lemma decimal_of_nonneg {n : ℤ} (h : 0 ≤ n) : decimal n = Nat.toDigits 10 n.toNat := by
  unfold decimal
  rw [Int.repr_eq_if, if_pos h, Nat.toList_repr]

lemma decimal_of_neg {n : ℤ} (h : n < 0) : decimal n = '-' :: Nat.toDigits 10 (-n).toNat := by
  unfold decimal
  rw [Int.repr_eq_if, if_neg (Int.not_le.mpr h), String.toList_append, Nat.toList_repr]
  rfl

lemma notMem_decimal {c : Char} (hdigit : c.isDigit = false) (hsign : c ≠ '-') (n : ℤ) :
    c ∉ decimal n := by
  have hdigits : ∀ k, c ∉ Nat.toDigits 10 k := by
    intro k hc
    rw [isDigit_of_mem_toDigits hc] at hdigit
    cases hdigit
  by_cases h : 0 ≤ n
  · rw [decimal_of_nonneg h]
    exact hdigits _
  · rw [decimal_of_neg (Int.not_le.mp h), List.mem_cons]
    rintro (heq | hmem)
    · exact hsign heq
    · exact hdigits _ hmem

/-- What a 32-bit integer is printed as is read back as it. -/
theorem toIntOrNull_decimal (h : AsciiDigits digit) (n : Int32) :
    toIntOrNull digit (decimal n.toInt) = some n := by
  by_cases hn : 0 ≤ n.toInt
  · have hlt := n.toInt_lt
    have hparse : ∀ s, (∀ c ∈ s, c.isDigit = true) → number digit s = some n.toInt.toNat →
        toIntOrNull digit s = some n := by
      intro s hs hnumber
      have hsmall : n.toInt.toNat < 2 ^ 31 := by omega
      have hvalue : (n.toInt.toNat : ℤ) = n.toInt := Int.toNat_of_nonneg hn
      unfold toIntOrNull
      split
      · exact absurd (hs _ List.mem_cons_self) (by decide)
      · exact absurd (hs _ List.mem_cons_self) (by decide)
      · rw [hnumber, Option.bind_some, if_pos hsmall, hvalue, Int32.ofInt_toInt]
    rw [decimal_of_nonneg hn]
    exact hparse _ (fun c hc => isDigit_of_mem_toDigits hc) (number_toDigits h _)
  · have hle := n.le_toInt
    have hsmall : (-n.toInt).toNat ≤ 2 ^ 31 := by omega
    have hvalue : -((-n.toInt).toNat : ℤ) = n.toInt := by omega
    rw [decimal_of_neg (Int.not_le.mp hn)]
    simp only [toIntOrNull]
    rw [number_toDigits h, Option.bind_some, if_pos hsmall, hvalue, Int32.ofInt_toInt]

end Decimal

end Text
