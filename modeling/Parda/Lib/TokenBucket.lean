import Mathlib.Algebra.Order.Field.Basic
import Mathlib.Data.List.Count
import Mathlib.Tactic.Linarith
import Parda.Lib.Simulation

/-!
# Token buckets

A bucket holds up to `capacity` tokens, gains `rate` of them a unit of time, and pays one
for each request it accepts. Tokens and times are elements of an ordered field.
-/

namespace TokenBucket

section Counts

variable {T : Type*} [LinearOrder T]

/-- The requests of a log accepted from `s` to `t`. -/
def accepted (s t : T) (entries : List (T × Bool)) : ℕ :=
  entries.countP fun e => decide (s ≤ e.1) && decide (e.1 ≤ t) && e.2

variable {s t : T}

@[simp] lemma accepted_nil : accepted s t [] = 0 := rfl

lemma accepted_cons (e : T × Bool) (entries : List (T × Bool)) :
    accepted s t (e :: entries) =
      accepted s t entries + if s ≤ e.1 ∧ e.1 ≤ t ∧ e.2 = true then 1 else 0 := by
  unfold accepted
  rw [List.countP_cons]
  simp [and_assoc]

lemma accepted_eq_zero {entries : List (T × Bool)} (h : ∀ e ∈ entries, t < e.1) :
    accepted s t entries = 0 := by
  unfold accepted
  rw [List.countP_eq_zero]
  intro e he
  have hlate := not_le.mpr (h e he)
  simp [hlate]

lemma accepted_eq_length {entries : List (T × Bool)}
    (h : ∀ e ∈ entries, s ≤ e.1 ∧ e.1 ≤ t ∧ e.2 = true) : accepted s t entries = entries.length := by
  unfold accepted
  rw [List.countP_eq_length]
  intro e he
  obtain ⟨hs, ht, haccepted⟩ := h e he
  simp [hs, ht, haccepted]

end Counts

variable {K : Type*} [Field K] [LinearOrder K]

/-- The tokens left at the time of the last refill. -/
structure Bucket (K : Type*) where
  tokens : K
  lastRefill : K
  deriving DecidableEq

def full (capacity now : K) : Bucket K := ⟨capacity, now⟩

/-- The time since the last refill, none when the clock reads earlier. -/
def Bucket.idle (b : Bucket K) (now : K) : K := max (now - b.lastRefill) 0

variable (capacity rate : K)

def refill (b : Bucket K) (now : K) : Bucket K :=
  ⟨min (b.tokens + b.idle now * rate) capacity, now⟩

def accepts (b : Bucket K) (now : K) : Bool :=
  decide (1 ≤ (refill capacity rate b now).tokens)

def request (b : Bucket K) (now : K) : Bucket K :=
  let refilled := refill capacity rate b now
  if 1 ≤ refilled.tokens then { refilled with tokens := refilled.tokens - 1 } else refilled

/-- Each request of a run with its answer. -/
def log (b : Bucket K) (times : List K) : List (K × Bool) :=
  Machine.outputs (request capacity rate) (fun b now => some (now, accepts capacity rate b now)) b
    times

/-- A bucket that the next refill at `now` fills. -/
def Full (now : K) (b : Bucket K) : Prop :=
  refill capacity rate b now = full capacity now

/-- What holds of every bucket in use at `now`. -/
structure Sound (now : K) (b : Bucket K) : Prop where
  tokens_nonneg : 0 ≤ b.tokens
  tokens_le : b.tokens ≤ capacity
  lastRefill_le : b.lastRefill ≤ now

variable {capacity rate} {b b' : Bucket K} {now now' : K}

@[simp] lemma log_nil : log capacity rate b [] = [] := rfl

lemma log_cons (now : K) (times : List K) :
    log capacity rate b (now :: times) =
      (now, accepts capacity rate b now) :: log capacity rate (request capacity rate b now) times :=
  rfl

@[simp] lemma refill_lastRefill : (refill capacity rate b now).lastRefill = now := rfl

@[simp] lemma request_lastRefill : (request capacity rate b now).lastRefill = now := by
  unfold request
  dsimp only
  split <;> rfl

lemma log_map_fst (b : Bucket K) (times : List K) :
    (log capacity rate b times).map Prod.fst = times := by
  induction times generalizing b with
  | nil => rfl
  | cons now times ih => rw [log_cons, List.map_cons, ih]

/-- Requests after `t` do not count. -/
lemma accepted_log_eq_zero {s t : K} {times : List K} (h : ∀ time ∈ times, t < time) :
    accepted s t (log capacity rate b times) = 0 := by
  apply accepted_eq_zero
  intro e he
  have hmem := List.mem_map_of_mem (f := Prod.fst) he
  rw [log_map_fst] at hmem
  exact h e.1 hmem

/-- What a request does is decided by the refilled bucket alone. -/
lemma request_congr (h : refill capacity rate b now = refill capacity rate b' now) :
    request capacity rate b now = request capacity rate b' now := by
  unfold request
  rw [h]

lemma accepts_congr (h : refill capacity rate b now = refill capacity rate b' now) :
    accepts capacity rate b now = accepts capacity rate b' now := by
  unfold accepts
  rw [h]

lemma Bucket.idle_nonneg (b : Bucket K) (now : K) : 0 ≤ b.idle now := le_max_right _ _

lemma sound_full (h : 0 ≤ capacity) (now : K) : Sound capacity now (full capacity now) :=
  ⟨h, le_rfl, le_rfl⟩

lemma Sound.mono (h : Sound capacity now b) (hnow : now ≤ now') : Sound capacity now' b :=
  ⟨h.tokens_nonneg, h.tokens_le, h.lastRefill_le.trans hnow⟩

variable (capacity rate) in
/-- What one request leaves of the tokens when it is accepted and when it is not. -/
lemma request_tokens_add (b : Bucket K) (now : K) :
    (request capacity rate b now).tokens + (if accepts capacity rate b now then 1 else 0) =
      (refill capacity rate b now).tokens := by
  unfold request accepts
  by_cases h : 1 ≤ (refill capacity rate b now).tokens
  · simp [h]
  · simp [h]

variable [IsStrictOrderedRing K]

lemma Bucket.idle_of_le (h : b.lastRefill ≤ now) : b.idle now = now - b.lastRefill :=
  max_eq_left (sub_nonneg.mpr h)

lemma Bucket.idle_eq_zero (h : b.lastRefill = now) : b.idle now = 0 := by
  rw [Bucket.idle_of_le h.le, h, sub_self]

lemma refill_full (h : 0 ≤ rate) (now' now : K) :
    refill capacity rate (full capacity now') now = full capacity now := by
  have hgain : 0 ≤ (full capacity now').idle now * rate := mul_nonneg (Bucket.idle_nonneg _ _) h
  unfold refill full at *
  rw [min_eq_right (by linarith)]

lemma Full.refill_eq (h : Full capacity rate now b) (hrate : 0 ≤ rate) (now' : K) :
    refill capacity rate b now = refill capacity rate (full capacity now') now := by
  rw [refill_full hrate]
  exact h

/-- When a full bucket was filled does not matter. -/
lemma log_full (h : 0 ≤ rate) (now now' : K) (times : List K) :
    log capacity rate (full capacity now) times = log capacity rate (full capacity now') times := by
  cases times with
  | nil => rfl
  | cons time times =>
    have hsame : refill capacity rate (full capacity now) time =
        refill capacity rate (full capacity now') time := by
      rw [refill_full h, refill_full h]
    rw [log_cons, log_cons, accepts_congr hsame, request_congr hsame]

/-- A bucket that has been idle for as long as an empty one needs is full. -/
lemma full_of_idle (htokens : 0 ≤ b.tokens) (h : capacity ≤ b.idle now * rate) :
    Full capacity rate now b := by
  unfold Full refill full
  rw [min_eq_right (by linarith)]

lemma Full.mono (h : Full capacity rate now b) (hrate : 0 ≤ rate) (hb : b.lastRefill ≤ now)
    (hnow : now ≤ now') : Full capacity rate now' b := by
  have hfull : capacity ≤ b.tokens + b.idle now * rate :=
    min_eq_right_iff.mp (congrArg Bucket.tokens h)
  have hidle : b.idle now ≤ b.idle now' := by
    rw [Bucket.idle_of_le hb, Bucket.idle_of_le (hb.trans hnow)]
    linarith
  have hgain : b.idle now * rate ≤ b.idle now' * rate := mul_le_mul_of_nonneg_right hidle hrate
  unfold Full refill full
  rw [min_eq_right (by linarith)]

lemma Sound.refill (h : Sound capacity now b) (hrate : 0 ≤ rate) (now' : K) :
    Sound capacity now' (refill capacity rate b now') := by
  have hgain : 0 ≤ b.idle now' * rate := mul_nonneg (Bucket.idle_nonneg _ _) hrate
  have htokens := h.tokens_nonneg
  have hcap := h.tokens_le
  exact ⟨le_min (by linarith) (by linarith), min_le_right _ _, le_rfl⟩

lemma Sound.request (h : Sound capacity now b) (hrate : 0 ≤ rate) (now' : K) :
    Sound capacity now' (request capacity rate b now') := by
  have hrefill := h.refill hrate now'
  have hcap := hrefill.tokens_le
  unfold TokenBucket.request
  dsimp only
  split
  · rename_i hone
    exact ⟨sub_nonneg.mpr hone, (sub_le_self _ zero_le_one).trans hcap, le_rfl⟩
  · exact hrefill

section Bounds

variable {s t : K}

variable (capacity rate) in
lemma refill_tokens_le (hb : b.lastRefill ≤ now) :
    (refill capacity rate b now).tokens ≤ b.tokens + (now - b.lastRefill) * rate := by
  rw [← Bucket.idle_of_le hb]
  exact min_le_left _ _

lemma budget_nonneg {tokens : K} (htokens : 0 ≤ tokens) (hrate : 0 ≤ rate) (hst : s ≤ t) :
    0 ≤ tokens + (t - s) * rate :=
  add_nonneg htokens (mul_nonneg (sub_nonneg.mpr hst) hrate)

/-- From a bucket at hand, no more requests are accepted up to `t` than its tokens and the
refill until then pay for. -/
theorem accepted_le_tokens (hrate : 0 ≤ rate) {times : List K} (hb : Sound capacity b.lastRefill b)
    (ht : b.lastRefill ≤ t) (hsorted : (b.lastRefill :: times).Pairwise (· ≤ ·)) :
    (accepted s t (log capacity rate b times) : K) ≤ b.tokens + (t - b.lastRefill) * rate := by
  have hbudget := budget_nonneg hb.tokens_nonneg hrate ht
  induction times generalizing b with
  | nil =>
    rw [log_nil, accepted_nil, Nat.cast_zero]
    exact hbudget
  | cons now times ih =>
    obtain ⟨hhead, hrest⟩ := List.pairwise_cons.mp hsorted
    have hnow : b.lastRefill ≤ now := hhead now List.mem_cons_self
    by_cases hle : now ≤ t
    · have hnext : Sound capacity now (request capacity rate b now) := hb.request hrate now
      have hstep := ih (b := request capacity rate b now)
        (by rw [request_lastRefill]; exact hnext)
        (by rw [request_lastRefill]; exact hle) (by rw [request_lastRefill]; exact hrest)
        (by rw [request_lastRefill]; exact budget_nonneg hnext.tokens_nonneg hrate hle)
      have hpaid := request_tokens_add capacity rate b now
      have hrefill := refill_tokens_le capacity rate hnow
      have hcharge : ((if s ≤ now ∧ now ≤ t ∧ accepts capacity rate b now = true then 1 else 0 : ℕ) : K)
          ≤ if accepts capacity rate b now then 1 else 0 := by
        split <;> split <;> simp_all
      rw [request_lastRefill] at hstep
      rw [log_cons, accepted_cons, Nat.cast_add]
      linarith
    · have hlate : ∀ time ∈ now :: times, t < time := by
        intro time htime
        rcases List.mem_cons.mp htime with rfl | htail
        · exact not_le.mp hle
        · exact (not_le.mp hle).trans_le ((List.pairwise_cons.mp hrest).1 time htail)
      rw [accepted_log_eq_zero hlate, Nat.cast_zero]
      exact hbudget

/-- A refill at the time of a request is the one that the request makes. -/
lemma log_refill (b : Bucket K) (now : K) (times : List K) :
    log capacity rate (refill capacity rate b now) (now :: times) =
      log capacity rate b (now :: times) := by
  have hsame : refill capacity rate (refill capacity rate b now) now =
      refill capacity rate b now := by
    unfold refill
    rw [Bucket.idle_eq_zero rfl, zero_mul, add_zero, min_eq_left (min_le_right _ _)]
  rw [log_cons, log_cons, request_congr hsame, accepts_congr hsame]

/-- The bound of a token bucket: from `s` to `t` it accepts no more than its capacity and the
refill in between. -/
theorem accepted_le (hrate : 0 ≤ rate) {times : List K} (hb : Sound capacity now b)
    (hst : s ≤ t) (hsorted : (now :: times).Pairwise (· ≤ ·)) :
    (accepted s t (log capacity rate b times) : K) ≤ capacity + (t - s) * rate := by
  have hbudget := budget_nonneg (hb.tokens_nonneg.trans hb.tokens_le) hrate hst
  induction times generalizing b now with
  | nil =>
    rw [log_nil, accepted_nil, Nat.cast_zero]
    exact hbudget
  | cons now' times ih =>
    obtain ⟨-, hrest⟩ := List.pairwise_cons.mp hsorted
    have hlater : ∀ time ∈ now' :: times, now' ≤ time := by
      simpa using (List.pairwise_cons.mp hrest).1
    by_cases hle : s ≤ now'
    · by_cases ht : now' ≤ t
      · -- the first request counted: from its refill on the tokens pay
        have hrefill := hb.refill hrate now'
        have hbound := accepted_le_tokens (s := s) (t := t) (b := refill capacity rate b now') hrate
          hrefill ht (List.pairwise_cons.mpr ⟨hlater, hrest⟩)
        have hgain : (t - now') * rate ≤ (t - s) * rate :=
          mul_le_mul_of_nonneg_right (by linarith) hrate
        have hcap := hrefill.tokens_le
        rw [log_refill, refill_lastRefill] at hbound
        linarith
      · have hlate : ∀ time ∈ now' :: times, t < time :=
          fun time htime => (not_le.mp ht).trans_le (hlater time htime)
        rw [accepted_log_eq_zero hlate, Nat.cast_zero]
        exact hbudget
    · rw [log_cons, accepted_cons, if_neg (fun h => hle h.1), add_zero]
      exact ih (hb.request hrate now') hrest

/-- A bucket accepts as many requests at one time as it has tokens. -/
theorem log_replicate {n : ℕ} (h : (n : K) ≤ (refill capacity rate b now).tokens) :
    log capacity rate b (List.replicate n now) = List.replicate n (now, true) := by
  induction n generalizing b with
  | zero => rfl
  | succ n ih =>
    rw [Nat.cast_succ] at h
    have hone : 1 ≤ (refill capacity rate b now).tokens := by
      have := Nat.cast_nonneg (α := K) n
      linarith
    have hnext : (n : K) ≤ (refill capacity rate (request capacity rate b now) now).tokens := by
      have hpaid := request_tokens_add capacity rate b now
      have hcap : (refill capacity rate b now).tokens ≤ capacity := min_le_right _ _
      rw [accepts, decide_eq_true hone, if_pos rfl] at hpaid
      unfold refill
      rw [Bucket.idle_eq_zero request_lastRefill, zero_mul, add_zero]
      exact le_min (by linarith) (by linarith)
    rw [List.replicate_succ, List.replicate_succ, log_cons, ih hnext, accepts, decide_eq_true hone]

end Bounds

end TokenBucket
