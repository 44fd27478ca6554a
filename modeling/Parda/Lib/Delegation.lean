import Mathlib.Data.Set.Basic

/-!
# Chains of delegation

A key signs statements, and a statement may name a further key, whose signatures then count as
well. A signature that verifies under a key of `honest` has been made by the holder of the key.
-/

namespace Delegation

variable {κ μ σ : Type*}

/-- Every link is good under the key that the link before it names. -/
def Chain (good : κ → μ → σ → Prop) (names : μ → Option κ) : κ → List (μ × σ) → Prop
  | _, [] => True
  | key, [link] => good key link.1 link.2
  | key, link :: next :: rest =>
    good key link.1 link.2 ∧ ∃ key', names link.1 = some key' ∧ Chain good names key' (next :: rest)

/-- What verifies under an honest key was made with it. -/
def Unforged (verify : κ → μ → σ → Prop) (made : κ → μ → Prop) (honest : Set κ)
    (links : List (μ × σ)) : Prop :=
  ∀ key ∈ honest, ∀ link ∈ links, verify key link.1 link.2 → made key link.1

/-- Honest keys name honest keys only. -/
def Closed (made : κ → μ → Prop) (names : μ → Option κ) (honest : Set κ) : Prop :=
  ∀ key ∈ honest, ∀ m, made key m → ∀ key', names m = some key' → key' ∈ honest

variable {verify : κ → μ → σ → Prop} {made : κ → μ → Prop} {names : μ → Option κ} {honest : Set κ}

/-- A chain that verifies from an honest root was made, link by link. -/
theorem made_of_verifies (hclosed : Closed made names honest) {root : κ} (hroot : root ∈ honest)
    {links : List (μ × σ)} (hunforged : Unforged verify made honest links)
    (h : Chain verify names root links) : Chain (fun key m _ => made key m) names root links := by
  induction links generalizing root with
  | nil => trivial
  | cons link links ih =>
    cases links with
    | nil => exact hunforged root hroot link List.mem_cons_self h
    | cons next rest =>
      obtain ⟨hverify, key, hnames, hrest⟩ := h
      have hmade : made root link.1 := hunforged root hroot link List.mem_cons_self hverify
      have hkey : key ∈ honest := hclosed root hroot link.1 hmade key hnames
      have htail : Unforged verify made honest (next :: rest) :=
        fun k hk l hl => hunforged k hk l (List.mem_cons_of_mem _ hl)
      exact ⟨hmade, key, hnames, ih hkey htail hrest⟩

end Delegation
