import Mathlib.Data.List.Range
import Mathlib.Tactic.Ring
import Parda.Gateway.RateLimiter
import Parda.Lib.Text

/-!
# Buckets of different keys

Whether the traffic of other keys, through the evictions it causes, can change what the limiter
answers a key, and how many calls of a key it accepts.
-/

namespace Parda

namespace Gateway

open TokenBucket RateLimiter

/-- Histories that agree on a key's calls are answered alike on that key. -/
def NonInterfering (capacity : UInt32) (perSecond : ℚ) : Prop :=
  ∀ (key : String) (history history' : List Acquire), InOrder history → InOrder history' →
    callsOf key history = callsOf key history' →
      answersTo key ((RateLimiter.new capacity perSecond).log history) =
        answersTo key ((RateLimiter.new capacity perSecond).log history')

/-- The accepted calls of a key from `s` to `t`. -/
def acceptedOf (key : String) (s t : ℚ) (entries : List (Acquire × Bool)) : ℕ :=
  entries.countP fun e =>
    decide (e.1.key = key) && (decide (s ≤ e.1.now) && decide (e.1.now ≤ t) && e.2)

variable {capacity : UInt32} {perSecond : ℚ} {history : List Acquire} {key : String}

lemma capacity_nonneg (capacity : UInt32) : (0 : ℚ) ≤ (capacity.toNat : ℚ) := Nat.cast_nonneg _

lemma answersTo_eq (entries : List (Acquire × Bool)) :
    answersTo key entries =
      ((entriesOf key entries).map fun e => (e.1.now, e.2)).map Prod.snd := by
  unfold answersTo
  rw [List.map_map]
  rfl

lemma answersTo_append (entries entries' : List (Acquire × Bool)) :
    answersTo key (entries ++ entries') = answersTo key entries ++ answersTo key entries' := by
  unfold answersTo entriesOf
  rw [List.filter_append, List.map_append]

lemma acceptedOf_eq (s t : ℚ) (entries : List (Acquire × Bool)) :
    acceptedOf key s t entries =
      accepted s t ((entriesOf key entries).map fun e => (e.1.now, e.2)) := by
  unfold acceptedOf accepted entriesOf
  rw [List.countP_map, List.countP_filter]
  apply List.countP_congr
  intro e he
  simp only [Function.comp, Bool.and_comm]

lemma tracks_new (hrate : 0 ≤ perSecond) (key : String) (now : ℚ) :
    Tracks now key (full (capacity.toNat : ℚ) now) (RateLimiter.new capacity perSecond) where
  distinct := List.nodup_nil
  sound := sound_full (capacity_nonneg capacity) now
  eq_of_stored b' hb' := by cases hb'
  full_of_absent _ := refill_full hrate now now

/-- Some time before a history. -/
lemma exists_start (horder : InOrder history) : ∃ start, ∀ call ∈ history, start ≤ call.now := by
  cases history with
  | nil => exact ⟨0, by simp⟩
  | cons call history =>
    refine ⟨call.now, fun call' hcall' => ?_⟩
    rcases List.mem_cons.mp hcall' with rfl | htail
    · exact le_rfl
    · exact (List.pairwise_cons.mp horder).1 call' htail

/-- At the rates the eviction allows for, every key is answered from a bucket of its own. -/
theorem entriesOf_log_new (hrate : 1 / 1000 ≤ perSecond) (horder : InOrder history)
    (key : String) (now : ℚ) :
    (entriesOf key ((RateLimiter.new capacity perSecond).log history)).map
        (fun e => (e.1.now, e.2)) =
      TokenBucket.log (capacity.toNat : ℚ) perSecond (full (capacity.toNat : ℚ) now)
        ((callsOf key history).map Acquire.now) := by
  have hpos : 0 ≤ perSecond := le_trans (by norm_num) hrate
  obtain ⟨start, hstart⟩ := exists_start horder
  rw [log_full hpos now start]
  exact entriesOf_log hrate (tracks_new hpos key start) hstart horder

section Bounds

/-- What holds of a limiter at all times. -/
structure InBounds (capacity : ℚ) (limiter : RateLimiter) : Prop where
  capacity_eq : limiter.capacity = capacity
  capacity_nonneg : 0 ≤ capacity
  perSecond_nonneg : 0 ≤ limiter.perSecond
  tokens : ∀ e ∈ limiter.buckets, 0 ≤ e.2.tokens ∧ e.2.tokens ≤ capacity

variable {limiter : RateLimiter} {now : ℚ}

lemma mem_evict {e : String × Bucket ℚ} (h : e ∈ (limiter.evict now).buckets) :
    e ∈ limiter.buckets := by
  unfold evict at h
  split at h
  · exact (List.mem_filter.mp h).1
  · exact h

lemma InBounds.bucketFor {c : ℚ} (h : InBounds c limiter) (key : String) (now : ℚ) :
    0 ≤ (limiter.bucketFor key now).tokens ∧ (limiter.bucketFor key now).tokens ≤ c := by
  unfold RateLimiter.bucketFor bucket?
  cases hfind : (limiter.evict now).buckets.find? fun e => e.1 = key with
  | none => exact ⟨h.capacity_eq ▸ h.capacity_nonneg, h.capacity_eq.le⟩
  | some e => exact h.tokens e (mem_evict (List.mem_of_find?_eq_some hfind))

lemma InBounds.step {c : ℚ} (h : InBounds c limiter) (call : Acquire) :
    InBounds c (limiter.step call) := by
  refine ⟨?_, h.capacity_nonneg, ?_, ?_⟩
  · rw [step_capacity]
    exact h.capacity_eq
  · rw [step_perSecond]
    exact h.perSecond_nonneg
  · intro e he
    unfold RateLimiter.step at he
    rw [tryAcquire_eq] at he
    rcases List.mem_cons.mp he with rfl | hrest
    · have hbucket := h.bucketFor call.key call.now
      have hsound : Sound limiter.capacity _ (limiter.bucketFor call.key call.now) :=
        ⟨hbucket.1, h.capacity_eq ▸ hbucket.2, le_rfl⟩
      have hnext := hsound.request h.perSecond_nonneg call.now
      exact ⟨hnext.tokens_nonneg, h.capacity_eq ▸ hnext.tokens_le⟩
    · exact h.tokens e (mem_evict (Table.mem_deleteKey.mp hrest).1)

lemma inBounds_new (hrate : 0 ≤ perSecond) :
    InBounds capacity.toNat (RateLimiter.new capacity perSecond) where
  capacity_eq := rfl
  capacity_nonneg := capacity_nonneg capacity
  perSecond_nonneg := hrate
  tokens e he := by cases he

/-- A stored bucket holds between none and `capacity` tokens, and a key has no more calls accepted
in an interval than a full bucket and the refill in between pay for. -/
theorem tokens_mem_and_acceptedOf_le (hrate : 1 / 1000 ≤ perSecond) (horder : InOrder history) :
    Machine.EveryState RateLimiter.step
        (fun limiter => ∀ e ∈ limiter.buckets, 0 ≤ e.2.tokens ∧ e.2.tokens ≤ capacity.toNat)
        (RateLimiter.new capacity perSecond) history ∧
      ∀ (key : String) (s t : ℚ), s ≤ t →
        (acceptedOf key s t ((RateLimiter.new capacity perSecond).log history) : ℚ) ≤
          capacity.toNat + perSecond * (t - s) := by
  have hpos : 0 ≤ perSecond := le_trans (by norm_num) hrate
  constructor
  · have hnew : InBounds capacity.toNat (RateLimiter.new capacity perSecond) := inBounds_new hpos
    have hstep : ∀ limiter call, InBounds (capacity.toNat : ℚ) limiter →
        InBounds (capacity.toNat : ℚ) (limiter.step call) := fun _ call h => h.step call
    have hall := Machine.everyState_of_step hstep hnew history
    exact hall.mono fun _ h => h.tokens
  · intro key s t hst
    obtain ⟨start, hstart⟩ := exists_start horder
    have hsorted : (start :: (callsOf key history).map Acquire.now).Pairwise (· ≤ ·) := by
      refine List.pairwise_cons.mpr ⟨?_, List.pairwise_map.mpr (horder.filter _)⟩
      intro time htime
      obtain ⟨call, hcall, rfl⟩ := List.mem_map.mp htime
      exact hstart call (List.mem_filter.mp hcall).1
    rw [acceptedOf_eq, entriesOf_log_new hrate horder key start, mul_comm perSecond]
    exact accepted_le hpos (sound_full (capacity_nonneg capacity) start) hst hsorted

end Bounds

section Floods

variable {limiter : RateLimiter} {keys : List String} {now : ℚ}

/-- Calls of one key at one time. -/
def burst (key : String) (n : ℕ) (now : ℚ) : List Acquire :=
  List.replicate n ⟨key, now⟩

def flooderKey (n : ℕ) : String := "key:client-" ++ Nat.repr n

/-- One call of each of 10,001 keys. -/
def flood : List Acquire := (List.range 10001).map fun n => ⟨flooderKey n, 0⟩

lemma flooderKey_injective : Function.Injective flooderKey := by
  intro m n h
  have htail : (Nat.repr m).toList = (Nat.repr n).toList := by
    have hlist := congrArg String.toList h
    unfold flooderKey at hlist
    rw [String.toList_append, String.toList_append] at hlist
    exact List.append_cancel_left hlist
  rw [Nat.toList_repr, Nat.toList_repr] at htail
  exact Text.toDigits_injective htail

/-- All buckets were refilled at `now`, and `keys` have one. -/
structure AllAt (now : ℚ) (keys : List String) (limiter : RateLimiter) : Prop where
  distinct : Table.KeysDistinct Prod.fst limiter.buckets
  idle_pos : 0 < limiter.idleToFull
  lastRefill : ∀ e ∈ limiter.buckets, e.2.lastRefill = now
  stored : ∀ key ∈ keys, key ∈ limiter.buckets.map Prod.fst

/-- No bucket is evicted at the time it was refilled. -/
lemma AllAt.evict_eq (h : AllAt now keys limiter) : limiter.evict now = limiter := by
  have hall : limiter.buckets.filter
      (fun e => durationSince now e.2.lastRefill < limiter.idleToFull) = limiter.buckets := by
    apply List.filter_eq_self.mpr
    intro e he
    have hidle : durationSince now e.2.lastRefill = 0 := by
      rw [h.lastRefill e he]
      simp [durationSince]
    rw [hidle]
    exact decide_eq_true h.idle_pos
  unfold evict
  rw [hall]
  split <;> rfl

lemma AllAt.step (h : AllAt now keys limiter) (key : String) :
    AllAt now (key :: keys) (limiter.step ⟨key, now⟩) := by
  have hstep : limiter.step ⟨key, now⟩ = limiter.setBucket key
      (request limiter.capacity limiter.perSecond (limiter.bucketFor key now) now) := by
    unfold RateLimiter.step
    rw [tryAcquire_eq, h.evict_eq]
  refine ⟨distinct_step h.distinct _, ?_, ?_, ?_⟩
  · rw [hstep]
    exact h.idle_pos
  · intro e he
    rw [hstep] at he
    rcases List.mem_cons.mp he with rfl | hrest
    · exact request_lastRefill
    · exact h.lastRefill e (Table.mem_deleteKey.mp hrest).1
  · intro key' hkey'
    rw [hstep]
    by_cases heq : key' = key
    · rw [heq]
      exact List.mem_cons_self
    · have hold := h.stored key' ((List.mem_cons.mp hkey').resolve_left heq)
      obtain ⟨e, he, rfl⟩ := List.mem_map.mp hold
      exact List.mem_map_of_mem (List.mem_cons_of_mem _ (Table.mem_deleteKey.mpr ⟨he, heq⟩))

lemma AllAt.run (h : AllAt now keys limiter) {history : List Acquire}
    (hnow : ∀ call ∈ history, call.now = now) :
    AllAt now (history.map Acquire.key ++ keys) (Machine.run RateLimiter.step limiter history) := by
  induction history generalizing keys limiter with
  | nil => exact h
  | cons call history ih =>
    rw [List.forall_mem_cons] at hnow
    obtain ⟨key, time⟩ := call
    obtain ⟨rfl, hrest⟩ := hnow
    have hrun := ih (h.step key) hrest
    refine ⟨hrun.distinct, hrun.idle_pos, hrun.lastRefill, fun key' hkey' => hrun.stored key' ?_⟩
    rw [List.mem_append, List.mem_cons]
    rw [List.map_cons, List.cons_append, List.mem_cons, List.mem_append] at hkey'
    tauto

/-- A large map none of whose buckets was used for long enough is emptied by the next call. -/
lemma AllAt.evict_buckets (h : AllAt now keys limiter) (hkeys : keys.Nodup)
    (hlarge : 10000 < keys.length) {later : ℚ} (hlater : limiter.idleToFull ≤ later - now) :
    (limiter.evict later).buckets = [] := by
  have hsub : keys.length ≤ (limiter.buckets.map Prod.fst).length :=
    (hkeys.subperm h.stored).length_le
  rw [List.length_map] at hsub
  unfold evict
  rw [if_pos (lt_of_lt_of_le hlarge hsub)]
  apply List.filter_eq_nil_iff.mpr
  intro e he
  rw [h.lastRefill e he, decide_eq_true_eq, not_lt]
  exact hlater.trans (le_max_left _ _)

end Floods

section Alone

variable {limiter : RateLimiter} {b : Bucket ℚ} {now : ℚ}

lemma evict_of_small (h : limiter.buckets.length ≤ 10000) : limiter.evict now = limiter := by
  unfold evict
  rw [if_neg (not_lt.mpr h)]

lemma step_alone (h : limiter.buckets = [(key, b)]) (now : ℚ) :
    limiter.bucketFor key now = b ∧ (limiter.step ⟨key, now⟩).buckets =
      [(key, request limiter.capacity limiter.perSecond b now)] := by
  have hevict : limiter.evict now = limiter := evict_of_small (by simp [h])
  have hbucket : limiter.bucketFor key now = b := by
    simp [RateLimiter.bucketFor, hevict, bucket?, h]
  refine ⟨hbucket, ?_⟩
  unfold RateLimiter.step
  rw [tryAcquire_eq, hevict, hbucket]
  simp [setBucket, h, Table.upsert, Table.deleteKey]

/-- While the map holds one key's bucket only, the limiter is that bucket, at any rate. -/
lemma log_alone (h : limiter.buckets = [(key, b)]) (times : List ℚ) :
    (limiter.log (times.map (Acquire.mk key))).map (fun e => (e.1.now, e.2)) =
      TokenBucket.log limiter.capacity limiter.perSecond b times := by
  induction times generalizing limiter b with
  | nil => rfl
  | cons now times ih =>
    obtain ⟨hbucket, hnext⟩ := step_alone h now
    have htail := ih hnext
    rw [step_capacity, step_perSecond] at htail
    rw [List.map_cons, RateLimiter.log_cons, List.map_cons, htail, TokenBucket.log_cons,
      tryAcquire_eq, hbucket]

/-- A call that leaves no other bucket finds a full one. -/
lemma log_alone_of_evict (h : (limiter.evict now).buckets = []) (times : List ℚ) :
    (limiter.log ((now :: times).map (Acquire.mk key))).map (fun e => (e.1.now, e.2)) =
      TokenBucket.log limiter.capacity limiter.perSecond (full limiter.capacity now)
        (now :: times) := by
  have hbucket : limiter.bucketFor key now = full limiter.capacity now := by
    simp [RateLimiter.bucketFor, bucket?, h]
  have hnext : (limiter.step ⟨key, now⟩).buckets =
      [(key, request limiter.capacity limiter.perSecond (full limiter.capacity now) now)] := by
    unfold RateLimiter.step
    rw [tryAcquire_eq, hbucket]
    simp [setBucket, h, Table.upsert, Table.deleteKey]
  have htail := log_alone hnext times
  rw [step_capacity, step_perSecond] at htail
  rw [List.map_cons, RateLimiter.log_cons, List.map_cons, htail, TokenBucket.log_cons,
    tryAcquire_eq, hbucket]

/-- A burst at a bucket that was filled is accepted up to the capacity. -/
lemma log_burst_of_evict (hrate : 0 ≤ limiter.perSecond) (h : (limiter.evict now).buckets = [])
    {n : ℕ} (hn : (n : ℚ) ≤ limiter.capacity) :
    (limiter.log (burst key n now)).map (fun e => (e.1.now, e.2)) = List.replicate n (now, true) := by
  cases n with
  | zero => rfl
  | succ n =>
    have hburst : burst key (n + 1) now = (now :: List.replicate n now).map (Acquire.mk key) := by
      rw [List.map_cons, List.map_replicate]
      rfl
    have hfull : ((n + 1 : ℕ) : ℚ) ≤
        (refill limiter.capacity limiter.perSecond (full limiter.capacity now) now).tokens := by
      rw [refill_full hrate]
      exact hn
    rw [hburst, log_alone_of_evict h, ← List.replicate_succ, log_replicate hfull]

end Alone

section Interference

/-- A client that uses up its bucket and comes back after the time the eviction waits. -/
def quiet (capacity : UInt32) : List Acquire :=
  burst "key:alpha" capacity.toNat 0 ++ burst "key:alpha" capacity.toNat (1000 * capacity.toNat)

/-- The same client, with 10,001 other keys in use in between. -/
def flooded (capacity : UInt32) : List Acquire :=
  burst "key:alpha" capacity.toNat 0 ++ flood ++
    burst "key:alpha" capacity.toNat (1000 * capacity.toNat)

variable {limiter : RateLimiter}

lemma key_of_mem_burst {key : String} {n : ℕ} {now : ℚ} :
    ∀ call ∈ burst key n now, call.key = key := by
  intro call hcall
  rw [List.eq_of_mem_replicate hcall]

lemma now_of_mem_burst {key : String} {n : ℕ} {now : ℚ} :
    ∀ call ∈ burst key n now, call.now = now := by
  intro call hcall
  rw [List.eq_of_mem_replicate hcall]

lemma key_of_mem_flood : ∀ call ∈ flood, call.key ≠ "key:alpha" := by
  intro call hcall
  obtain ⟨n, -, rfl⟩ := List.mem_map.mp hcall
  intro heq
  have hlist := congrArg String.toList heq
  unfold flooderKey at hlist
  rw [String.toList_append] at hlist
  have hchar := congrArg (fun l => l[4]?) hlist
  simp at hchar

lemma now_of_mem_flood : ∀ call ∈ flood, call.now = 0 := by
  intro call hcall
  obtain ⟨n, -, rfl⟩ := List.mem_map.mp hcall
  rfl

lemma now_of_mem_floodAfter (n : ℕ) :
    ∀ call ∈ burst "key:alpha" n 0 ++ flood, call.now = 0 := by
  intro call hcall
  rcases List.mem_append.mp hcall with hburst | hflood
  · exact now_of_mem_burst call hburst
  · exact now_of_mem_flood call hflood

lemma answersTo_log_of_forall (h : ∀ call ∈ history, call.key = key) :
    answersTo key (limiter.log history) = (limiter.log history).map Prod.snd := by
  unfold answersTo entriesOf
  rw [List.filter_eq_self.mpr]
  intro e he
  have hmem := List.mem_map_of_mem (f := Prod.fst) he
  rw [log_map_fst] at hmem
  exact decide_eq_true (h e.1 hmem)

lemma answersTo_log_of_ne (h : ∀ call ∈ history, call.key ≠ key) :
    answersTo key (limiter.log history) = [] := by
  unfold answersTo entriesOf
  rw [List.filter_eq_nil_iff.mpr, List.map_nil]
  intro e he
  have hmem := List.mem_map_of_mem (f := Prod.fst) he
  rw [log_map_fst] at hmem
  simpa using h e.1 hmem

/-- The answers to a burst that is all accepted. -/
lemma answersTo_burst (hrate : 0 ≤ limiter.perSecond) {now : ℚ}
    (h : (limiter.evict now).buckets = []) {n : ℕ} (hn : (n : ℚ) ≤ limiter.capacity) :
    answersTo key (limiter.log (burst key n now)) = List.replicate n true := by
  have hburst : (limiter.log (burst key n now)).map (fun e => (e.1.now, e.2)) =
      List.replicate n (now, true) := log_burst_of_evict hrate h hn
  have hlog := congrArg (List.map Prod.snd) hburst
  rw [List.map_map, List.map_replicate] at hlog
  rw [answersTo_log_of_forall key_of_mem_burst]
  exact hlog

lemma idleToFull_of_lt (h : limiter.perSecond < 1 / 1000) :
    limiter.idleToFull = 1000 * limiter.capacity := by
  unfold idleToFull
  rw [max_eq_right h.le, one_div, div_inv_eq_mul, mul_comm]

lemma run_capacity (limiter : RateLimiter) (history : List Acquire) :
    (Machine.run RateLimiter.step limiter history).capacity = limiter.capacity ∧
      (Machine.run RateLimiter.step limiter history).perSecond = limiter.perSecond := by
  induction history generalizing limiter with
  | nil => exact ⟨rfl, rfl⟩
  | cons call history ih =>
    have htail := ih (limiter.step call)
    rwa [step_capacity, step_perSecond] at htail

/-- After the flood a call that comes late enough empties the map. -/
lemma evict_flood (n : ℕ) (hidle : 0 < (RateLimiter.new capacity perSecond).idleToFull) {later : ℚ}
    (hlater : (RateLimiter.new capacity perSecond).idleToFull ≤ later) :
    ((Machine.run RateLimiter.step (RateLimiter.new capacity perSecond)
      (burst "key:alpha" n 0 ++ flood)).evict later).buckets = [] := by
  have hstart : AllAt 0 [] (RateLimiter.new capacity perSecond) :=
    ⟨List.nodup_nil, hidle, by simp [RateLimiter.new], by simp⟩
  have hrun := hstart.run (now_of_mem_floodAfter n)
  have hfloodKeys : AllAt 0 (flood.map Acquire.key) (Machine.run RateLimiter.step
      (RateLimiter.new capacity perSecond) (burst "key:alpha" n 0 ++ flood)) := by
    refine ⟨hrun.distinct, hrun.idle_pos, hrun.lastRefill, fun key hkey => hrun.stored key ?_⟩
    rw [List.map_append]
    exact List.mem_append_left _ (List.mem_append_right _ hkey)
  have hnodup : (flood.map Acquire.key).Nodup := by
    unfold flood
    rw [List.map_map]
    exact List.nodup_range.map flooderKey_injective
  have hlength : 10000 < (flood.map Acquire.key).length := by
    unfold flood
    simp
  obtain ⟨hcapacity, hperSecond⟩ := run_capacity (RateLimiter.new capacity perSecond)
    (burst "key:alpha" n 0 ++ flood)
  refine hfloodKeys.evict_buckets hnodup hlength ?_
  unfold idleToFull at hlater ⊢
  rwa [hcapacity, hperSecond, sub_zero]

/-- Below the rate the eviction allows for, the evicted bucket was not full: the client is given a
second burst. -/
lemma answersTo_flooded (hpos : 0 ≤ perSecond) (hrate : perSecond < 1 / 1000)
    (hcap : 0 < capacity.toNat) :
    answersTo "key:alpha" ((RateLimiter.new capacity perSecond).log (flooded capacity)) =
      List.replicate capacity.toNat true ++ List.replicate capacity.toNat true := by
  have hidle : (RateLimiter.new capacity perSecond).idleToFull = 1000 * capacity.toNat :=
    idleToFull_of_lt hrate
  obtain ⟨hcapacity, hperSecond⟩ := run_capacity (RateLimiter.new capacity perSecond)
    (burst "key:alpha" capacity.toNat 0 ++ flood)
  have hevict := evict_flood capacity.toNat (hidle ▸ by positivity) hidle.le
  unfold flooded
  rw [RateLimiter.log_append, answersTo_append, RateLimiter.log_append, answersTo_append,
    answersTo_log_of_ne key_of_mem_flood, List.append_nil,
    answersTo_burst hpos rfl le_rfl, answersTo_burst (by rwa [hperSecond]) hevict
      (by rw [hcapacity]; exact le_rfl)]

def quietTimes (capacity : UInt32) : List ℚ :=
  List.replicate capacity.toNat (0 : ℚ) ++ List.replicate capacity.toNat (1000 * (capacity.toNat : ℚ))

lemma quiet_eq (capacity : UInt32) :
    quiet capacity = (quietTimes capacity).map (Acquire.mk "key:alpha") := by
  unfold quiet burst quietTimes
  rw [List.map_append, List.map_replicate, List.map_replicate]

lemma mem_quietTimes {time : ℚ} (h : time ∈ quietTimes capacity) :
    0 ≤ time ∧ time ≤ 1000 * capacity.toNat := by
  have hend : (0 : ℚ) ≤ 1000 * capacity.toNat := by positivity
  rcases List.mem_append.mp h with hfirst | hsecond
  · rw [List.eq_of_mem_replicate hfirst]
    exact ⟨le_rfl, hend⟩
  · rw [List.eq_of_mem_replicate hsecond]
    exact ⟨hend, le_rfl⟩

lemma quietTimes_sorted (capacity : UInt32) : (quietTimes capacity).Pairwise (· ≤ ·) := by
  refine List.pairwise_append.mpr ⟨?_, ?_, ?_⟩
  · exact List.pairwise_replicate.mpr (Or.inr le_rfl)
  · exact List.pairwise_replicate.mpr (Or.inr le_rfl)
  · intro time htime time' htime'
    rw [List.eq_of_mem_replicate htime, List.eq_of_mem_replicate htime']
    positivity

lemma log_quiet (hcap : 0 < capacity.toNat) :
    ((RateLimiter.new capacity perSecond).log (quiet capacity)).map (fun e => (e.1.now, e.2)) =
      TokenBucket.log (capacity.toNat : ℚ) perSecond (full (capacity.toNat : ℚ) 0)
        (quietTimes capacity) := by
  obtain ⟨n, hn⟩ := Nat.exists_eq_succ_of_ne_zero hcap.ne'
  have htimes : quietTimes capacity = (0 : ℚ) :: (List.replicate n (0 : ℚ) ++
      List.replicate capacity.toNat (1000 * (capacity.toNat : ℚ))) := by
    unfold quietTimes
    rw [hn, List.replicate_succ, List.cons_append]
  rw [quiet_eq, htimes]
  exact log_alone_of_evict rfl _

/-- Left alone, the client is given no more than its bucket refills by then. -/
lemma answersTo_quiet_ne (hpos : 0 ≤ perSecond) (hrate : perSecond < 1 / 1000)
    (hcap : 0 < capacity.toNat) :
    answersTo "key:alpha" ((RateLimiter.new capacity perSecond).log (quiet capacity)) ≠
      List.replicate capacity.toNat true ++ List.replicate capacity.toNat true := by
  intro hanswers
  let entries := TokenBucket.log (capacity.toNat : ℚ) perSecond (full (capacity.toNat : ℚ) 0)
    (quietTimes capacity)
  have hkeys : ∀ call ∈ quiet capacity, call.key = "key:alpha" := by
    intro call hcall
    rw [quiet_eq] at hcall
    obtain ⟨time, -, rfl⟩ := List.mem_map.mp hcall
    rfl
  have hsnd : entries.map Prod.snd =
      List.replicate capacity.toNat true ++ List.replicate capacity.toNat true := by
    unfold entries
    rw [← hanswers, answersTo_log_of_forall hkeys, ← log_quiet hcap, List.map_map]
    rfl
  have hall : ∀ e ∈ entries, (0 : ℚ) ≤ e.1 ∧ e.1 ≤ 1000 * capacity.toNat ∧ e.2 = true := by
    intro e he
    have htime := List.mem_map_of_mem (f := Prod.fst) he
    unfold entries at htime
    rw [TokenBucket.log_map_fst] at htime
    have hanswer := List.mem_map_of_mem (f := Prod.snd) he
    rw [hsnd, ← List.replicate_add] at hanswer
    exact ⟨(mem_quietTimes htime).1, (mem_quietTimes htime).2, List.eq_of_mem_replicate hanswer⟩
  have hlength : entries.length = capacity.toNat + capacity.toNat := by
    rw [← List.length_map Prod.snd, hsnd, List.length_append, List.length_replicate]
  have hsorted : ((0 : ℚ) :: quietTimes capacity).Pairwise (· ≤ ·) :=
    List.pairwise_cons.mpr ⟨fun _ htime => (mem_quietTimes htime).1, quietTimes_sorted capacity⟩
  have hbound : (accepted 0 (1000 * (capacity.toNat : ℚ)) entries : ℚ) ≤
      capacity.toNat + (1000 * (capacity.toNat : ℚ) - 0) * perSecond :=
    accepted_le_tokens hpos (sound_full (capacity_nonneg capacity) 0)
      (by positivity : (0 : ℚ) ≤ 1000 * capacity.toNat) hsorted
  rw [accepted_eq_length hall, hlength, Nat.cast_add] at hbound
  have hcap' : (0 : ℚ) < capacity.toNat := Nat.cast_pos.mpr hcap
  have hrefill : (1000 * (capacity.toNat : ℚ) - 0) * perSecond < capacity.toNat := by
    calc (1000 * (capacity.toNat : ℚ) - 0) * perSecond
        < (1000 * (capacity.toNat : ℚ) - 0) * (1 / 1000) :=
          mul_lt_mul_of_pos_left hrate (by linarith)
      _ = capacity.toNat := by ring
  linarith

lemma callsOf_flooded (capacity : UInt32) :
    callsOf "key:alpha" (quiet capacity) = callsOf "key:alpha" (flooded capacity) := by
  have hflood : callsOf "key:alpha" flood = [] := by
    apply List.filter_eq_nil_iff.mpr
    intro call hcall
    simpa using key_of_mem_flood call hcall
  unfold callsOf quiet flooded at *
  rw [List.filter_append, List.filter_append, List.filter_append, hflood, List.append_nil]

lemma inOrder_quiet (capacity : UInt32) : InOrder (quiet capacity) := by
  rw [quiet_eq]
  exact List.pairwise_map.mpr (quietTimes_sorted capacity)

lemma inOrder_flooded (capacity : UInt32) : InOrder (flooded capacity) := by
  have hend : (0 : ℚ) ≤ 1000 * capacity.toNat := by positivity
  have hstart := now_of_mem_floodAfter capacity.toNat
  refine List.pairwise_append.mpr ⟨?_, List.pairwise_replicate.mpr (Or.inr le_rfl), ?_⟩
  · refine List.pairwise_of_forall_mem_list fun call hcall call' hcall' => ?_
    rw [hstart call hcall, hstart call' hcall']
  · intro call hcall call' hcall'
    rw [hstart call hcall, now_of_mem_burst call' hcall']
    exact hend

/-- The client has one call refused before the flood, and the next one comes after an eviction. -/
theorem acceptedOf_le_flooded :
    let history := ⟨"key:alpha", 0⟩ :: flooded 60
    (Machine.EveryState RateLimiter.step
        (fun limiter => ∀ e ∈ limiter.buckets,
          0 ≤ e.2.tokens ∧ e.2.tokens ≤ (60 : UInt32).toNat)
        (RateLimiter.new 60 10) history ∧
      ∀ (key : String) (s t : ℚ), s ≤ t →
        (acceptedOf key s t ((RateLimiter.new 60 10).log history) : ℚ) ≤
          (60 : UInt32).toNat + 10 * (t - s)) ∧
    (⟨"key:alpha", 0⟩, false) ∈ (RateLimiter.new 60 10).log history ∧
    ((Machine.run RateLimiter.step (RateLimiter.new 60 10)
      (burst "key:alpha" 61 0 ++ flood)).evict 60000).buckets = [] := by
  intro history
  have horder : InOrder history := by
    refine List.pairwise_cons.mpr ⟨?_, inOrder_flooded 60⟩
    intro call hcall
    rcases List.mem_append.mp hcall with hfirst | hlast
    · exact (now_of_mem_floodAfter _ call hfirst).ge
    · rw [now_of_mem_burst call hlast]
      positivity
  have hsplit : history = burst "key:alpha" 61 0 ++
      (flood ++ burst "key:alpha" 60 (1000 * ((60 : UInt32).toNat : ℚ))) := by
    have hburst : burst "key:alpha" 61 0 =
        ⟨"key:alpha", 0⟩ :: burst "key:alpha" (60 : UInt32).toNat 0 := rfl
    unfold history flooded
    rw [hburst, List.cons_append, List.append_assoc]
    rfl
  have hrefused : (⟨"key:alpha", 0⟩, false) ∈
      (RateLimiter.new 60 10).log (burst "key:alpha" 61 0) := by decide +kernel
  have hidle : (RateLimiter.new 60 10).idleToFull = 6 := by
    have hcapacity : (UInt32.toNat 60 : ℚ) = 60 := rfl
    norm_num [RateLimiter.new, idleToFull, hcapacity]
  refine ⟨tokens_mem_and_acceptedOf_le (by norm_num) horder, ?_, ?_⟩
  · rw [hsplit, RateLimiter.log_append]
    exact List.mem_append_left _ hrefused
  · exact evict_flood 61 (by rw [hidle]; norm_num) (by rw [hidle]; norm_num)

lemma not_nonInterfering (hpos : 0 ≤ perSecond) (hrate : perSecond < 1 / 1000)
    (hcap : 0 < capacity.toNat) : ¬NonInterfering capacity perSecond := by
  intro h
  have hsame := h "key:alpha" (quiet capacity) (flooded capacity) (inOrder_quiet capacity)
    (inOrder_flooded capacity) (callsOf_flooded capacity)
  rw [answersTo_flooded hpos hrate hcap] at hsame
  exact answersTo_quiet_ne hpos hrate hcap hsame

lemma nonInterfering_of_rate (hrate : 1 / 1000 ≤ perSecond) :
    NonInterfering capacity perSecond := by
  intro key history history' horder horder' hcalls
  rw [answersTo_eq, answersTo_eq, entriesOf_log_new hrate horder key 0,
    entriesOf_log_new hrate horder' key 0, hcalls]

/-- A bucket of no tokens refuses every call. -/
lemma nonInterfering_of_capacity (hcap : capacity.toNat = 0) :
    NonInterfering capacity perSecond := by
  have hrefused : ∀ (limiter : RateLimiter) (history : List Acquire), limiter.capacity = 0 →
      ∀ e ∈ limiter.log history, e.2 = false := by
    intro limiter history hzero
    induction history generalizing limiter with
    | nil => simp [RateLimiter.log]
    | cons call history ih =>
      rw [RateLimiter.log_cons, List.forall_mem_cons]
      refine ⟨?_, ih _ (by rwa [step_capacity])⟩
      rw [tryAcquire_eq, hzero]
      have hle : (refill 0 limiter.perSecond (limiter.bucketFor call.key call.now)
          call.now).tokens ≤ 0 := min_le_right _ _
      exact decide_eq_false (not_le.mpr (lt_of_le_of_lt hle zero_lt_one))
  have hanswers : ∀ (key : String) (history : List Acquire),
      answersTo key ((RateLimiter.new capacity perSecond).log history) =
        (callsOf key history).map fun _ => false := by
    intro key history
    have hzero : (RateLimiter.new capacity perSecond).capacity = 0 := by
      simp [RateLimiter.new, hcap]
    have hcalls : callsOf key history =
        (entriesOf key ((RateLimiter.new capacity perSecond).log history)).map Prod.fst := by
      conv_lhs => rw [← log_map_fst (RateLimiter.new capacity perSecond) history]
      unfold callsOf entriesOf
      rw [List.filter_map]
      rfl
    rw [hcalls, List.map_map]
    apply List.map_congr_left
    intro e he
    exact hrefused _ history hzero e (List.mem_filter.mp he).1
  intro key history history' _ _ hcalls
  rw [hanswers, hanswers, hcalls]

/-- Eviction is unobservable exactly at rates of at least the floor it assumes, or when there is
nothing to observe. -/
theorem nonInterfering_iff (hpos : 0 ≤ perSecond) :
    NonInterfering capacity perSecond ↔ capacity = 0 ∨ 1 / 1000 ≤ perSecond := by
  constructor
  · intro h
    by_contra hnot
    rw [not_or, not_le] at hnot
    have hcap : 0 < capacity.toNat :=
      Nat.pos_of_ne_zero fun hzero => hnot.1 (UInt32.toNat_inj.mp hzero)
    exact not_nonInterfering hpos hnot.2 hcap h
  · rintro (rfl | hrate)
    · exact nonInterfering_of_capacity rfl
    · exact nonInterfering_of_rate hrate

theorem nonInterfering_default : NonInterfering 60 10 ↔ (60 : UInt32) = 0 ∨ (1 : ℚ) / 1000 ≤ 10 :=
  nonInterfering_iff (by norm_num)

/-- At the rate of the repository's tests the eviction shows. -/
theorem not_nonInterfering_slow : ¬NonInterfering 2 (1 / 10000) :=
  not_nonInterfering (by norm_num) (by norm_num) (by decide)

end Interference

end Gateway

end Parda
