import Parda.Lib.Table
import Parda.Lib.TokenBucket

/-!
# The gateway's rate limiter

`gateway/src/auth.rs` `RateLimiter`: a token bucket for each key and the eviction of idle
buckets once the map is large. Its floating point numbers and durations are rational numbers
here.
-/

namespace Parda

namespace Gateway

open TokenBucket

/-- `Instant::duration_since`, which saturates at zero. -/
def durationSince (now earlier : ℚ) : ℚ := max (now - earlier) 0

structure RateLimiter where
  capacity : ℚ
  perSecond : ℚ
  buckets : List (String × Bucket ℚ)

/-- A call of `try_acquire` and what its clock reads. -/
structure Acquire where
  key : String
  now : ℚ
  deriving DecidableEq

namespace RateLimiter

def new (capacity : UInt32) (perSecond : ℚ) : RateLimiter :=
  ⟨capacity.toNat, perSecond, []⟩

def idleToFull (limiter : RateLimiter) : ℚ :=
  limiter.capacity / max limiter.perSecond (1 / 1000)

/-- Opportunistic eviction. -/
def evict (limiter : RateLimiter) (now : ℚ) : RateLimiter :=
  if 10000 < limiter.buckets.length then
    { limiter with
      buckets := limiter.buckets.filter fun e =>
        durationSince now e.2.lastRefill < limiter.idleToFull }
  else limiter

def bucket? (limiter : RateLimiter) (key : String) : Option (Bucket ℚ) :=
  (limiter.buckets.find? (fun e => e.1 = key)).map Prod.snd

def setBucket (limiter : RateLimiter) (key : String) (bucket : Bucket ℚ) : RateLimiter :=
  { limiter with buckets := Table.upsert Prod.fst limiter.buckets (key, bucket) }

def tryAcquire (self : RateLimiter) (key : String) (now : ℚ) : Bool × RateLimiter :=
  let limiter := self.evict now
  let bucket := (limiter.bucket? key).getD ⟨limiter.capacity, now⟩
  let elapsed := durationSince now bucket.lastRefill
  let tokens := min (bucket.tokens + elapsed * limiter.perSecond) limiter.capacity
  if 1 ≤ tokens then (true, limiter.setBucket key ⟨tokens - 1, now⟩)
  else (false, limiter.setBucket key ⟨tokens, now⟩)

def step (limiter : RateLimiter) (call : Acquire) : RateLimiter :=
  (limiter.tryAcquire call.key call.now).2

/-- The calls of a traffic history with their answers. -/
def log (limiter : RateLimiter) (history : List Acquire) : List (Acquire × Bool) :=
  Machine.outputs step (fun s call => some (call, (s.tryAcquire call.key call.now).1)) limiter
    history

section Lemmas

variable {limiter : RateLimiter} {key key' : String} {now now' : ℚ} {b : Bucket ℚ}

@[simp] lemma evict_capacity : (limiter.evict now).capacity = limiter.capacity := by
  unfold evict
  split <;> rfl

@[simp] lemma evict_perSecond : (limiter.evict now).perSecond = limiter.perSecond := by
  unfold evict
  split <;> rfl

@[simp] lemma setBucket_capacity : (limiter.setBucket key b).capacity = limiter.capacity := rfl

@[simp] lemma setBucket_perSecond : (limiter.setBucket key b).perSecond = limiter.perSecond := rfl

lemma bucket?_setBucket :
    (limiter.setBucket key b).bucket? key' = if key = key' then some b else limiter.bucket? key' := by
  unfold bucket? setBucket
  rw [Table.find?_upsert]
  by_cases h : key = key'
  · simp [h]
  · simp [h]

lemma distinct_evict (h : Table.KeysDistinct Prod.fst limiter.buckets) :
    Table.KeysDistinct Prod.fst (limiter.evict now).buckets := by
  unfold evict
  split
  · exact h.filter _
  · exact h

lemma bucket?_evict (h : Table.KeysDistinct Prod.fst limiter.buckets) :
    (limiter.evict now).bucket? key =
      (limiter.bucket? key).filter fun b =>
        limiter.buckets.length ≤ 10000 ∨ durationSince now b.lastRefill < limiter.idleToFull := by
  unfold evict bucket?
  split
  · rename_i hlarge
    have hnot : ¬limiter.buckets.length ≤ 10000 := not_le.mpr hlarge
    simp only [h.find?_filter, Option.filter_map, hnot, false_or]
    rfl
  · rename_i hsmall
    have hkeep : ∀ o : Option (Bucket ℚ), o.filter (fun _ => true) = o := by
      rintro (- | b) <;> rfl
    simp [not_lt.mp hsmall, hkeep]

/-- The bucket a call is charged to. -/
def bucketFor (limiter : RateLimiter) (key : String) (now : ℚ) : Bucket ℚ :=
  ((limiter.evict now).bucket? key).getD (full limiter.capacity now)

/-- A call is a request of its bucket. -/
lemma tryAcquire_eq (limiter : RateLimiter) (key : String) (now : ℚ) :
    limiter.tryAcquire key now =
      (accepts limiter.capacity limiter.perSecond (limiter.bucketFor key now) now,
        (limiter.evict now).setBucket key
          (request limiter.capacity limiter.perSecond (limiter.bucketFor key now) now)) := by
  have hrefill : (refill limiter.capacity limiter.perSecond (limiter.bucketFor key now) now).tokens =
      min ((limiter.bucketFor key now).tokens +
        durationSince now (limiter.bucketFor key now).lastRefill * limiter.perSecond)
          limiter.capacity := rfl
  unfold tryAcquire accepts request
  simp only [evict_capacity, evict_perSecond, refill_lastRefill]
  rw [hrefill]
  unfold bucketFor full
  split
  · rename_i h
    rw [decide_eq_true h]
  · rename_i h
    rw [decide_eq_false h]
    rfl

lemma log_cons (limiter : RateLimiter) (call : Acquire) (history : List Acquire) :
    limiter.log (call :: history) =
      (call, (limiter.tryAcquire call.key call.now).1) :: (limiter.step call).log history := rfl

@[simp] lemma step_capacity (call : Acquire) : (limiter.step call).capacity = limiter.capacity := by
  unfold step
  rw [tryAcquire_eq, setBucket_capacity, evict_capacity]

@[simp] lemma step_perSecond (call : Acquire) :
    (limiter.step call).perSecond = limiter.perSecond := by
  unfold step
  rw [tryAcquire_eq, setBucket_perSecond, evict_perSecond]

lemma bucket?_step (limiter : RateLimiter) (call : Acquire) (key : String) :
    (limiter.step call).bucket? key =
      if call.key = key then
        some (request limiter.capacity limiter.perSecond (limiter.bucketFor call.key call.now)
          call.now)
      else (limiter.evict call.now).bucket? key := by
  unfold step
  rw [tryAcquire_eq, bucket?_setBucket]

lemma log_append (limiter : RateLimiter) (history history' : List Acquire) :
    limiter.log (history ++ history') =
      limiter.log history ++ (Machine.run step limiter history).log history' :=
  Machine.outputs_append _ _ _

lemma log_map_fst (limiter : RateLimiter) (history : List Acquire) :
    (limiter.log history).map Prod.fst = history := by
  induction history generalizing limiter with
  | nil => rfl
  | cons call history ih => rw [log_cons, List.map_cons, ih]

end Lemmas

section Tracking

/-- A bucket kept for `key` alone and never evicted stands for what the limiter stores. -/
structure Tracks (now : ℚ) (key : String) (b : Bucket ℚ) (limiter : RateLimiter) : Prop where
  distinct : Table.KeysDistinct Prod.fst limiter.buckets
  sound : Sound limiter.capacity now b
  eq_of_stored : ∀ b' ∈ limiter.bucket? key, b' = b
  full_of_absent : limiter.bucket? key = none → Full limiter.capacity limiter.perSecond now b

variable {limiter : RateLimiter} {key key' : String} {now now' : ℚ} {b : Bucket ℚ}

lemma Tracks.mono (h : Tracks now key b limiter) (hrate : 0 ≤ limiter.perSecond)
    (hnow : now ≤ now') : Tracks now' key b limiter :=
  ⟨h.distinct, h.sound.mono hnow, h.eq_of_stored,
    fun hnone => (h.full_of_absent hnone).mono hrate h.sound.lastRefill_le hnow⟩

/-- Only full buckets are evicted. -/
lemma full_of_evicted (hrate : 1 / 1000 ≤ limiter.perSecond)
    (htokens : 0 ≤ b.tokens) (h : ¬durationSince now b.lastRefill < limiter.idleToFull) :
    Full limiter.capacity limiter.perSecond now b := by
  have hpos : 0 < limiter.perSecond := lt_of_lt_of_le (by norm_num) hrate
  have hidle : limiter.capacity / limiter.perSecond ≤ b.idle now := by
    have hle := not_lt.mp h
    unfold idleToFull at hle
    rw [max_eq_left hrate] at hle
    exact hle
  exact full_of_idle htokens ((div_le_iff₀ hpos).mp hidle)

lemma Tracks.evict (h : Tracks now key b limiter) (hrate : 1 / 1000 ≤ limiter.perSecond) :
    Tracks now key b (limiter.evict now) := by
  refine ⟨distinct_evict h.distinct, ?_, ?_, ?_⟩
  · rw [evict_capacity]
    exact h.sound
  · intro b' hb'
    rw [bucket?_evict h.distinct] at hb'
    exact h.eq_of_stored b' (Option.mem_filter_iff.mp hb').1
  · intro hnone
    rw [evict_capacity, evict_perSecond]
    rw [bucket?_evict h.distinct] at hnone
    rcases hstored : limiter.bucket? key with - | b'
    · exact h.full_of_absent hstored
    · have hb : b' = b := h.eq_of_stored b' hstored
      rw [hstored, hb] at hnone
      have hidle : ¬durationSince now b.lastRefill < limiter.idleToFull := by
        intro hlt
        simp [Option.filter, hlt] at hnone
      exact full_of_evicted hrate h.sound.tokens_nonneg hidle

/-- The bucket a call is charged to refills as the one never evicted does. -/
lemma Tracks.refill_bucketFor (h : Tracks now key b limiter)
    (hrate : 1 / 1000 ≤ limiter.perSecond) :
    refill limiter.capacity limiter.perSecond (limiter.bucketFor key now) now =
      refill limiter.capacity limiter.perSecond b now := by
  have hevict := h.evict hrate
  have hpos : 0 ≤ limiter.perSecond := le_trans (by norm_num) hrate
  unfold bucketFor
  rcases hstored : (limiter.evict now).bucket? key with - | b'
  · have hfull := hevict.full_of_absent hstored
    rw [evict_capacity, evict_perSecond] at hfull
    exact (hfull.refill_eq hpos now).symm
  · rw [Option.getD_some, hevict.eq_of_stored b' hstored]

/-- A call for the key itself is answered as its own bucket answers. -/
lemma Tracks.tryAcquire_fst (h : Tracks now key b limiter)
    (hrate : 1 / 1000 ≤ limiter.perSecond) :
    (limiter.tryAcquire key now).1 = accepts limiter.capacity limiter.perSecond b now := by
  rw [tryAcquire_eq]
  exact accepts_congr (h.refill_bucketFor hrate)

lemma distinct_step (h : Table.KeysDistinct Prod.fst limiter.buckets) (call : Acquire) :
    Table.KeysDistinct Prod.fst (limiter.step call).buckets := by
  unfold step
  rw [tryAcquire_eq]
  exact (distinct_evict h).upsert _

lemma Tracks.step_self (h : Tracks now key b limiter) (hrate : 1 / 1000 ≤ limiter.perSecond) :
    Tracks now key (request limiter.capacity limiter.perSecond b now)
      (limiter.step ⟨key, now⟩) := by
  have hpos : 0 ≤ limiter.perSecond := le_trans (by norm_num) hrate
  have hstored : (limiter.step ⟨key, now⟩).bucket? key =
      some (request limiter.capacity limiter.perSecond b now) := by
    rw [bucket?_step, if_pos rfl, request_congr (h.refill_bucketFor hrate)]
  refine ⟨distinct_step h.distinct _, ?_, ?_, ?_⟩
  · rw [step_capacity]
    exact h.sound.request hpos now
  · intro b' hb'
    rw [hstored] at hb'
    exact (Option.mem_some.mp hb').symm
  · intro hnone
    rw [hstored] at hnone
    cases hnone

/-- Calls for other keys leave what stands for the key. -/
lemma Tracks.step_other (h : Tracks now key b limiter) (hrate : 1 / 1000 ≤ limiter.perSecond)
    (hne : key' ≠ key) : Tracks now key b (limiter.step ⟨key', now⟩) := by
  have hevict := h.evict hrate
  have hstored : (limiter.step ⟨key', now⟩).bucket? key = (limiter.evict now).bucket? key := by
    rw [bucket?_step, if_neg hne]
  refine ⟨distinct_step h.distinct _, ?_, ?_, ?_⟩
  · rw [step_capacity]
    exact h.sound
  · intro b' hb'
    rw [hstored] at hb'
    exact hevict.eq_of_stored b' hb'
  · intro hnone
    rw [hstored] at hnone
    have hfull := hevict.full_of_absent hnone
    rw [evict_capacity, evict_perSecond] at hfull
    rwa [step_capacity, step_perSecond]

end Tracking

end RateLimiter

/-- Traffic whose calls read a clock that never goes back. -/
def InOrder (history : List Acquire) : Prop :=
  history.Pairwise fun call call' => call.now ≤ call'.now

def callsOf (key : String) (history : List Acquire) : List Acquire :=
  history.filter fun call => call.key = key

/-- The entries of a log for one key. -/
def entriesOf (key : String) (entries : List (Acquire × Bool)) : List (Acquire × Bool) :=
  entries.filter fun e => e.1.key = key

def answersTo (key : String) (entries : List (Acquire × Bool)) : List Bool :=
  (entriesOf key entries).map Prod.snd

namespace RateLimiter

section Runs

variable {limiter : RateLimiter} {key : String} {now : ℚ} {b : Bucket ℚ}

/-- The limiter answers the calls of a key as a bucket kept for that key alone would. -/
theorem entriesOf_log (hrate : 1 / 1000 ≤ limiter.perSecond) {history : List Acquire}
    (h : Tracks now key b limiter) (hstart : ∀ call ∈ history, now ≤ call.now)
    (horder : InOrder history) :
    (entriesOf key (limiter.log history)).map (fun e => (e.1.now, e.2)) =
      TokenBucket.log limiter.capacity limiter.perSecond b
        ((callsOf key history).map Acquire.now) := by
  induction history generalizing limiter now b with
  | nil => rfl
  | cons call history ih =>
    obtain ⟨hlater, hrest⟩ := List.pairwise_cons.mp horder
    have hpos : 0 ≤ limiter.perSecond := le_trans (by norm_num) hrate
    have hnow := h.mono hpos (hstart call List.mem_cons_self)
    have hrate' : 1 / 1000 ≤ (limiter.step call).perSecond := by rwa [step_perSecond]
    rw [log_cons]
    unfold entriesOf callsOf at *
    by_cases hkey : call.key = key
    · subst hkey
      have htail := ih hrate' (hnow.step_self hrate) hlater hrest
      rw [step_capacity, step_perSecond] at htail
      rw [List.filter_cons_of_pos (by simp), List.filter_cons_of_pos (by simp), List.map_cons,
        List.map_cons, TokenBucket.log_cons, htail, hnow.tryAcquire_fst hrate]
    · have htail := ih hrate' (hnow.step_other hrate hkey) hlater hrest
      rw [step_capacity, step_perSecond] at htail
      rw [List.filter_cons_of_neg (by simp [hkey]), List.filter_cons_of_neg (by simp [hkey]), htail]

end Runs

end RateLimiter

end Gateway

end Parda
