import Mathlib.Order.Monotone.Basic
import Mathlib.Tactic.Common

/-!
# Rounds of exchange over bounded streams

Two parties go through rounds, and in each of them a party writes first and then reads what the
other writes. A party is described by two numbers, the bytes it has still to write and those it
has still to read. `mine k` are the bytes that it writes from round `k` on and `theirs k` those
of its peer. What one party has still to read is unread or still to be written.
-/

namespace Rounds

/-- A party that is writing in round `k`. -/
structure Writing (mine theirs : ℕ → ℕ) (k toWrite toRead : ℕ) : Prop where
  left : mine (k + 1) < toWrite
  within : toWrite ≤ mine k
  waits : toRead = theirs k

/-- A party that is reading in round `k`. -/
structure Reading (mine theirs : ℕ → ℕ) (k toWrite toRead : ℕ) : Prop where
  wrote : toWrite = mine (k + 1)
  left : theirs (k + 1) < toRead
  within : toRead ≤ theirs k

variable {mine theirs : ℕ → ℕ} {i j k toWrite toWrite' toRead toRead' unread unread' bound : ℕ}

/-- Two parties that both write are in the same round, and each of them has more to write in it
than is unread. -/
lemma Writing.congested (hmine : Antitone mine) (htheirs : Antitone theirs)
    (h : Writing mine theirs i toWrite toRead) (h' : Writing theirs mine j toWrite' toRead')
    (hread : toRead = unread + toWrite') (hread' : toRead' = unread' + toWrite) :
    i = j ∧ unread' < mine i - mine (i + 1) ∧ unread < theirs i - theirs (i + 1) := by
  have hleft := h.left
  have hleft' := h'.left
  have hwaits := h.waits
  have hwaits' := h'.waits
  have hij : i = j := by
    rcases Nat.lt_trichotomy i j with hlt | heq | hlt
    · -- the peer could not be past round `i` without the bytes that are left in it
      have hle : mine j ≤ mine (i + 1) := hmine hlt
      omega
    · exact heq
    · have hle : theirs i ≤ theirs (j + 1) := htheirs hlt
      omega
  subst hij
  refine ⟨rfl, ?_, ?_⟩
  · omega
  · omega

/-- Two parties that both read do not both find everything read that was written. -/
lemma Reading.not_both_starved (hmine : Antitone mine) (htheirs : Antitone theirs)
    (h : Reading mine theirs i toWrite toRead) (h' : Reading theirs mine j toWrite' toRead')
    (hread : toRead = toWrite') (hread' : toRead' = toWrite) : False := by
  have hleft := h.left
  have hleft' := h'.left
  have hwrote := h.wrote
  have hwrote' := h'.wrote
  have hji : j < i := by
    by_contra hle
    have hanti : theirs (j + 1) ≤ theirs (i + 1) := htheirs (by omega)
    omega
  have hanti : mine (i + 1) ≤ mine (j + 1) := hmine (by omega)
  omega

/-- In a round in which both have more to write than a stream holds, neither party writes its
last byte of the round as long as the other has not. -/
lemma behind (hmine : Antitone mine) (htheirs : Antitone theirs)
    (hlarge : bound < mine k - mine (k + 1))
    (h : Writing theirs mine j toWrite' toRead' ∨ Reading theirs mine j toWrite' toRead')
    (hread : toRead' = unread' + toWrite) (hroom : unread' < bound)
    (hbehind : theirs (k + 1) < toWrite') : mine (k + 1) < toWrite - 1 := by
  -- what the peer has still to read includes the whole of round `k`
  have hwhole : mine k ≤ toRead' := by
    rcases h with h | h
    · have hjk : j ≤ k := by
        by_contra hlt
        have hanti : theirs j ≤ theirs (k + 1) := htheirs (by omega)
        have hbelow := h.within
        omega
      have hanti : mine k ≤ mine j := hmine hjk
      have hwaits := h.waits
      omega
    · have hjk : j < k := by
        by_contra hle
        have hanti : theirs (j + 1) ≤ theirs (k + 1) := htheirs (by omega)
        have hwrote := h.wrote
        omega
      have hanti : mine k ≤ mine (j + 1) := hmine hjk
      have hbelow := h.left
      omega
  omega

end Rounds
