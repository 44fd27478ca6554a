import Mathlib.Algebra.BigOperators.Group.Finset.Basic
import Mathlib.Algebra.Order.BigOperators.Ring.Finset
import Parda.Gateway.Interference
import Parda.Mixnode.KeyFile

/-!
# The gateway's security layer

Model of `ApiSecurity` and `api_security_middleware` of `gateway/src/auth.rs`, in front of
every `/api/v1` route. The text that the environment has for the numbers is parsed already.
-/

namespace Parda

namespace Gateway

open Protocol RateLimiter TokenBucket
open Mixnode (trim)

def defaultBurst : UInt32 := 60
def defaultPerSecond : ℚ := 10

structure ApiSecurity where
  apiKeys : List String
  limiter : RateLimiter

/-- What the middleware reads of a request: the `Authorization` header, the address that the
connection came from, and the time. -/
structure ApiRequest where
  authorization : Option Bytes
  peer : Option String
  now : ℚ
deriving DecidableEq

inductive Verdict where
  | unauthorized (detail : String)
  | rateLimited
  | next
deriving DecidableEq

/-- `HeaderValue::to_str`. -/
def headerText (value : Bytes) : Option String :=
  if value.all fun b => (32 ≤ b && b < 127) || b = 9 then
    some (String.ofList (value.map fun b => Char.ofNat b.toNat))
  else none

/-- `strip_prefix("Bearer ")`. -/
def bearer (text : String) : Option String :=
  if "Bearer ".toList <+: text.toList then some (String.ofList (text.toList.drop 7)) else none

def ApiRequest.presented (r : ApiRequest) : Option String :=
  ((r.authorization.bind headerText).bind bearer).map trim

namespace ApiSecurity

def new (apiKeys : List String) (burst : UInt32) (perSecond : ℚ) : ApiSecurity :=
  ⟨apiKeys, .new burst perSecond⟩

def keysOfEnv (text : String) : List String :=
  (((text.toList.splitOn ',').map String.ofList).map trim).filter fun key => !key.isEmpty

def fromEnv (apiKeys : Option String) (burst : Option UInt32) (perSecond : Option ℚ) :
    ApiSecurity :=
  new (keysOfEnv (apiKeys.getD "")) (burst.getD defaultBurst) (perSecond.getD defaultPerSecond)

def authEnabled (s : ApiSecurity) : Bool := !s.apiKeys.isEmpty

/-- Every key is compared, also after a match. -/
def keyIsValid (s : ApiSecurity) (candidate : String) : Bool :=
  s.apiKeys.foldl (fun matched key => matched || Utf8.encode key == Utf8.encode candidate) false

/-- The bucket that a request is charged to, or why it gets no further. -/
def bucketKey (s : ApiSecurity) (r : ApiRequest) : Except String String :=
  if s.authEnabled then
    match r.presented with
    | some key => if s.keyIsValid key then .ok ("key:" ++ key) else .error "invalid API key"
    | none => .error "missing Authorization: Bearer <key> header"
  else
    match r.peer with
    | some ip => .ok ("addr:" ++ ip)
    | none => .ok "anonymous"

/-- `api_security_middleware`, up to `next.run`. -/
def middleware (s : ApiSecurity) (r : ApiRequest) : Verdict × ApiSecurity :=
  match s.bucketKey r with
  | .error detail => (.unauthorized detail, s)
  | .ok key =>
    let (allowed, limiter) := s.limiter.tryAcquire key r.now
    (if allowed then .next else .rateLimited, { s with limiter })

def step (s : ApiSecurity) (r : ApiRequest) : ApiSecurity := (s.middleware r).2

/-- The requests of a history with what becomes of them. -/
def log (s : ApiSecurity) (history : List ApiRequest) : List (ApiRequest × Verdict) :=
  Machine.outputs step (fun s r => some (r, (s.middleware r).1)) s history

/-- The call that a request makes of the rate limiter. -/
def acquire (s : ApiSecurity) (r : ApiRequest) : Option Acquire :=
  (s.bucketKey r).toOption.map (⟨·, r.now⟩)

end ApiSecurity

/-- The requests come in the order of the clock. -/
def Timely (history : List ApiRequest) : Prop :=
  history.Pairwise fun r r' => r.now ≤ r'.now

/-- The requests that are let through from `s` to `t`. -/
def letThrough (s t : ℚ) (entries : List (ApiRequest × Verdict)) : ℕ :=
  entries.countP fun e => decide (s ≤ e.1.now) && decide (e.1.now ≤ t) && decide (e.2 = .next)

namespace ApiSecurity

section Steps

variable {s : ApiSecurity} {r : ApiRequest} {history : List ApiRequest}

lemma keyIsValid_iff (s : ApiSecurity) (candidate : String) :
    s.keyIsValid candidate = true ↔ candidate ∈ s.apiKeys := by
  have hfold : ∀ (keys : List String) (matched : Bool),
      keys.foldl (fun matched key => matched || Utf8.encode key == Utf8.encode candidate) matched =
        true ↔ matched = true ∨ candidate ∈ keys := by
    intro keys
    induction keys with
    | nil => simp
    | cons key keys ih =>
      intro matched
      have hkey : (Utf8.encode key == Utf8.encode candidate) = true ↔ candidate = key := by
        rw [beq_iff_eq]
        constructor
        · intro h
          have hdecode := congrArg Utf8.decode h
          rw [Utf8.decode_encode, Utf8.decode_encode, Option.some.injEq] at hdecode
          exact hdecode.symm
        · rintro rfl
          rfl
      rw [List.foldl_cons, ih, Bool.or_eq_true, hkey, List.mem_cons, or_assoc]
  unfold keyIsValid
  rw [hfold]
  simp

@[simp] lemma apiKeys_step : (s.step r).apiKeys = s.apiKeys := by
  unfold step middleware
  cases s.bucketKey r with
  | _ => rfl

/-- Which bucket a request falls in does not change. -/
lemma bucketKey_congr {s' : ApiSecurity} (h : s'.apiKeys = s.apiKeys) (r : ApiRequest) :
    s'.bucketKey r = s.bucketKey r := by
  unfold bucketKey authEnabled keyIsValid
  rw [h]

lemma limiter_step : (s.step r).limiter = Machine.run RateLimiter.step s.limiter
    (s.acquire r).toList := by
  unfold step middleware acquire
  cases s.bucketKey r with
  | error detail => rfl
  | ok key => rfl

/-- With keys configured, a request gets to the limiter exactly with one of them. -/
lemma acquire_eq_some_iff (h : s.authEnabled = true) {call : Acquire} :
    s.acquire r = some call ↔
      ∃ key ∈ s.apiKeys, r.presented = some key ∧ call = ⟨"key:" ++ key, r.now⟩ := by
  unfold acquire bucketKey
  rw [if_pos h]
  cases hpresented : r.presented with
  | none => simp [Except.toOption]
  | some key =>
    by_cases hvalid : s.keyIsValid key = true
    · have hmem := (s.keyIsValid_iff key).mp hvalid
      simp only [hvalid, if_true, Except.toOption, Option.map_some, Option.some.injEq]
      constructor
      · rintro rfl
        exact ⟨key, hmem, rfl, rfl⟩
      · rintro ⟨_, -, rfl, rfl⟩
        rfl
    · have hmem : key ∉ s.apiKeys := fun hmem => hvalid ((s.keyIsValid_iff key).mpr hmem)
      simp only [hvalid, Except.toOption]
      constructor
      · intro hnone
        cases hnone
      · rintro ⟨_, hkey, heq, -⟩
        rw [Option.some.injEq] at heq
        exact absurd (heq ▸ hkey) hmem

lemma log_cons (s : ApiSecurity) (r : ApiRequest) (history : List ApiRequest) :
    s.log (r :: history) = (r, (s.middleware r).1) :: (s.step r).log history := rfl

/-- The verdict over a call, given the limiter's answer to it. -/
def verdictOf (allowed : Bool) : Verdict := if allowed then .next else .rateLimited

lemma middleware_fst {call : Acquire} (h : s.acquire r = some call) :
    (s.middleware r).1 = verdictOf (s.limiter.tryAcquire call.key call.now).1 := by
  unfold acquire at h
  unfold middleware
  cases hkey : s.bucketKey r with
  | error detail =>
    rw [hkey] at h
    cases h
  | ok key =>
    rw [hkey] at h
    cases h
    rfl

lemma middleware_of_none (h : s.acquire r = none) :
    ∃ detail, (s.middleware r).1 = .unauthorized detail ∧ s.step r = s := by
  unfold acquire at h
  unfold step middleware
  cases hkey : s.bucketKey r with
  | error detail => exact ⟨detail, rfl, rfl⟩
  | ok key =>
    rw [hkey] at h
    cases h

/-- What the layer answers over a history is what the limiter answers to the calls of it. -/
lemma log_limiter (s : ApiSecurity) (history : List ApiRequest) :
    (s.log history).filterMap (fun e => (s.acquire e.1).map fun call => (call, e.2)) =
      (s.limiter.log (history.filterMap s.acquire)).map fun e => (e.1, verdictOf e.2) := by
  induction history generalizing s with
  | nil => rfl
  | cons r history ih =>
    have hsame : ∀ r', (s.step r).acquire r' = s.acquire r' := fun r' => by
      unfold acquire
      rw [bucketKey_congr apiKeys_step]
    have htail := ih (s.step r)
    have hfun : (s.step r).acquire = s.acquire := funext hsame
    rw [hfun, limiter_step] at htail
    rw [log_cons]
    cases hcall : s.acquire r with
    | none =>
      rw [hcall] at htail
      rw [List.filterMap_cons_none (by simp [hcall]), List.filterMap_cons_none hcall, htail]
      rfl
    | some call =>
      rw [hcall] at htail
      rw [List.filterMap_cons_some (b := (call, (s.middleware r).1)) (by simp [hcall]),
        List.filterMap_cons_some hcall, htail, RateLimiter.log_cons, List.map_cons,
        middleware_fst hcall]
      rfl

end Steps

section Counts

variable {β γ δ ι : Type*}

/-- Filtering by what a partial function maps to. -/
lemma map_filter_eq_filterMap {p : β → Bool} {g : β → Option γ} {q : γ → Bool} {u : β → δ} {v : γ → δ}
    (hp : ∀ b, p b = ((g b).map q).getD false) (hu : ∀ b c, g b = some c → v c = u b) (l : List β) :
    (l.filter p).map u = ((l.filterMap g).filter q).map v := by
  induction l with
  | nil => rfl
  | cons b l ih =>
    cases hb : g b with
    | none =>
      have hno : p b = false := by rw [hp, hb]; rfl
      rw [List.filter_cons_of_neg (by simp [hno]), List.filterMap_cons_none hb, ih]
    | some c =>
      have hsame : p b = q c := by rw [hp, hb]; rfl
      rw [List.filterMap_cons_some hb]
      by_cases hq : q c = true
      · rw [List.filter_cons_of_pos (hsame.trans hq), List.filter_cons_of_pos hq, List.map_cons,
          List.map_cons, ih, hu b c hb]
      · rw [List.filter_cons_of_neg (by rw [hsame]; exact hq), List.filter_cons_of_neg hq, ih]

/-- What is counted falls under one of the keys. -/
lemma countP_eq_sum [DecidableEq ι] {K : Finset ι} {f : β → ι} {p : β → Bool} {l : List β}
    (h : ∀ b ∈ l, f b ∈ K) :
    l.countP p = ∑ k ∈ K, l.countP fun b => decide (f b = k) && p b := by
  induction l with
  | nil => simp
  | cons b l ih =>
    obtain ⟨hb, hl⟩ := List.forall_mem_cons.mp h
    simp only [List.countP_cons, Finset.sum_add_distrib, ← ih hl]
    congr 1
    rw [Finset.sum_eq_single (f b)]
    · simp
    · intro k _ hk
      simp [Ne.symm hk]
    · exact fun hnot => absurd hb hnot

end Counts

section Keys

variable {apiKeys : List String} {burst : UInt32} {perSecond : ℚ} {s : ApiSecurity}
  {history history' : List ApiRequest} {key : String}

/-- The buckets that there can be when keys are configured. -/
def bucketKeys (apiKeys : List String) : Finset String :=
  apiKeys.toFinset.image ("key:" ++ ·)

lemma prefix_injective : Function.Injective ("key:" ++ · : String → String) := by
  intro a b h
  have hlists := congrArg String.toList h
  exact String.toList_inj.mp (by simpa using hlists)

/-- The requests of a history that present the key. -/
def presenting (key : String) (history : List ApiRequest) : List ApiRequest :=
  history.filter fun r => r.presented = some key

def verdictsFor (key : String) (entries : List (ApiRequest × Verdict)) : List Verdict :=
  (entries.filter fun e => e.1.presented = some key).map Prod.snd

lemma presented_eq (h : s.authEnabled = true) (hkey : key ∈ s.apiKeys) (r : ApiRequest) :
    decide (r.presented = some key) =
      (((s.acquire r).map fun call => decide (call.key = "key:" ++ key)).getD false) := by
  rw [Bool.eq_iff_iff, decide_eq_true_iff]
  constructor
  · intro hpresented
    rw [(acquire_eq_some_iff h).mpr ⟨key, hkey, hpresented, rfl⟩]
    simp
  · intro hcharged
    cases hcall : s.acquire r with
    | none =>
      rw [hcall] at hcharged
      cases hcharged
    | some call =>
      obtain ⟨key', -, hpresented, rfl⟩ := (acquire_eq_some_iff h).mp hcall
      rw [hcall] at hcharged
      have heq : "key:" ++ key' = "key:" ++ key := by simpa using hcharged
      rw [hpresented, prefix_injective heq]

lemma inOrder_calls (h : s.authEnabled = true) (horder : Timely history) :
    InOrder (history.filterMap s.acquire) := by
  refine List.Pairwise.filterMap s.acquire ?_ horder
  intro r r' hle call hcall call' hcall'
  obtain ⟨_, -, -, rfl⟩ := (acquire_eq_some_iff h).mp hcall
  obtain ⟨_, -, -, rfl⟩ := (acquire_eq_some_iff h).mp hcall'
  exact hle

/-- A client's requests are answered as its own bucket answers them. -/
lemma verdictsFor_log (henabled : (new apiKeys burst perSecond).authEnabled = true)
    (hrate : 1 / 1000 ≤ perSecond) (horder : Timely history) (hkey : key ∈ apiKeys) :
    verdictsFor key ((new apiKeys burst perSecond).log history) =
      (TokenBucket.log (burst.toNat : ℚ) perSecond (full (burst.toNat : ℚ) 0)
        ((presenting key history).map ApiRequest.now)).map fun e => verdictOf e.2 := by
  let s := new apiKeys burst perSecond
  have hcalls : InOrder (history.filterMap s.acquire) := inOrder_calls henabled horder
  have htimes : (presenting key history).map ApiRequest.now =
      (callsOf ("key:" ++ key) (history.filterMap s.acquire)).map Acquire.now := by
    refine map_filter_eq_filterMap (presented_eq henabled hkey) ?_ history
    intro r call hcall
    obtain ⟨_, -, -, rfl⟩ := (acquire_eq_some_iff henabled).mp hcall
    rfl
  have hanswers : verdictsFor key (s.log history) =
      ((entriesOf ("key:" ++ key) (s.limiter.log (history.filterMap s.acquire))).map
        fun e => verdictOf e.2) := by
    have hleft := map_filter_eq_filterMap (u := Prod.snd) (v := Prod.snd)
      (p := fun e : ApiRequest × Verdict => decide (e.1.presented = some key))
      (g := fun e => (s.acquire e.1).map fun call => (call, e.2))
      (q := fun e => decide (e.1.key = "key:" ++ key))
      (fun e => by rw [presented_eq henabled hkey, Option.map_map]; rfl)
      (fun e x hx => by
        obtain ⟨call, -, rfl⟩ := Option.map_eq_some_iff.mp hx
        rfl) (s.log history)
    have hright := List.filter_map (p := fun e : Acquire × Verdict =>
      decide (e.1.key = "key:" ++ key)) (f := fun e : Acquire × Bool => (e.1, verdictOf e.2))
      (l := s.limiter.log (history.filterMap s.acquire))
    unfold verdictsFor entriesOf
    rw [hleft, log_limiter, hright, List.map_map]
    rfl
  rw [hanswers, htimes, ← entriesOf_log_new hrate hcalls ("key:" ++ key) 0, List.map_map]
  rfl

lemma verdict_of_mem_log {e : ApiRequest × Verdict} (he : e ∈ s.log history) :
    ∃ s' : ApiSecurity, s'.apiKeys = s.apiKeys ∧ (s'.middleware e.1).1 = e.2 := by
  have hstep : ∀ (s' : ApiSecurity) (r : ApiRequest), s'.apiKeys = s.apiKeys →
      (s'.step r).apiKeys = s.apiKeys := fun s' r h => apiKeys_step.trans h
  refine Machine.forall_mem_outputs (p := fun e => ∃ s' : ApiSecurity,
    s'.apiKeys = s.apiKeys ∧ (s'.middleware e.1).1 = e.2) hstep ?_ rfl history e he
  rintro s' r hkeys o ho
  cases ho
  exact ⟨s', hkeys, rfl⟩

/-- A request that presents no configured key is refused, and charged to no bucket. -/
lemma unauthorized_of_mem_log {e : ApiRequest × Verdict} (he : e ∈ s.log history)
    (hnone : s.acquire e.1 = none) : ∃ detail, e.2 = .unauthorized detail := by
  obtain ⟨s', hkeys, hverdict⟩ := verdict_of_mem_log he
  have hnone' : s'.acquire e.1 = none := by
    unfold acquire at hnone ⊢
    rwa [bucketKey_congr hkeys]
  obtain ⟨detail, hdetail, -⟩ := middleware_of_none hnone'
  exact ⟨detail, hverdict.symm.trans hdetail⟩

/-- What is let through has been accepted by the limiter. -/
lemma letThrough_log (s : ApiSecurity) (history : List ApiRequest) (a b : ℚ) :
    letThrough a b (s.log history) =
      (s.limiter.log (history.filterMap s.acquire)).countP fun e =>
        decide (a ≤ e.1.now) && decide (e.1.now ≤ b) && e.2 := by
  let p : Acquire × Verdict → Bool := fun e =>
    decide (a ≤ e.1.now) && decide (e.1.now ≤ b) && decide (e.2 = .next)
  have hcharged : letThrough a b (s.log history) =
      ((s.log history).filterMap fun e => (s.acquire e.1).map fun call => (call, e.2)).countP p := by
    rw [List.countP_filterMap]
    apply List.countP_congr
    intro e he
    cases hcall : s.acquire e.1 with
    | none =>
      obtain ⟨detail, hdetail⟩ := unauthorized_of_mem_log he hcall
      simp [hdetail]
    | some call =>
      obtain ⟨_, -, rfl⟩ := Option.map_eq_some_iff.mp hcall
      rfl
  rw [hcharged, log_limiter, List.countP_map]
  apply List.countP_congr
  rintro ⟨call, allowed⟩ -
  cases allowed <;> simp [p, verdictOf]

/-- The window bound of one bucket of the layer. -/
lemma acceptedOf_le (hrate : 1 / 1000 ≤ perSecond) {calls : List Acquire} (horder : InOrder calls)
    (bucket : String) {a b : ℚ} (hab : a ≤ b) :
    (acceptedOf bucket a b ((RateLimiter.new burst perSecond).log calls) : ℚ) ≤
      burst.toNat + perSecond * (b - a) := by
  have hpos : 0 ≤ perSecond := le_trans (by norm_num) hrate
  obtain ⟨start, hstart⟩ := exists_start horder
  have hsorted : (start :: (callsOf bucket calls).map Acquire.now).Pairwise (· ≤ ·) := by
    refine List.pairwise_cons.mpr ⟨?_, List.pairwise_map.mpr (horder.filter _)⟩
    intro time htime
    obtain ⟨call, hcall, rfl⟩ := List.mem_map.mp htime
    exact hstart call (List.mem_filter.mp hcall).1
  rw [acceptedOf_eq, entriesOf_log_new hrate horder bucket start, mul_comm perSecond]
  exact accepted_le hpos (sound_full (capacity_nonneg burst) start) hab hsorted

/-- The buckets of the limiter are those of configured keys, one each. -/
structure Bucketed (apiKeys : List String) (s : ApiSecurity) : Prop where
  apiKeys_eq : s.apiKeys = apiKeys
  distinct : Table.KeysDistinct Prod.fst s.limiter.buckets
  keys : ∀ e ∈ s.limiter.buckets, e.1 ∈ bucketKeys apiKeys

lemma Bucketed.step (henabled : apiKeys ≠ []) (h : Bucketed apiKeys s) (r : ApiRequest) :
    Bucketed apiKeys (s.step r) := by
  have hauth : s.authEnabled = true := by
    rw [authEnabled, h.apiKeys_eq]
    simpa using henabled
  refine ⟨apiKeys_step.trans h.apiKeys_eq, ?_, ?_⟩
  · rw [limiter_step]
    cases s.acquire r with
    | none => exact h.distinct
    | some call => exact distinct_step h.distinct call
  · rw [limiter_step]
    cases hcall : s.acquire r with
    | none => exact h.keys
    | some call =>
      obtain ⟨key, hkey, -, rfl⟩ := (acquire_eq_some_iff hauth).mp hcall
      intro e he
      change e ∈ (RateLimiter.step s.limiter _).buckets at he
      unfold RateLimiter.step at he
      rw [tryAcquire_eq] at he
      rcases List.mem_cons.mp he with rfl | hrest
      · rw [h.apiKeys_eq] at hkey
        exact Finset.mem_image_of_mem _ (List.mem_toFinset.mpr hkey)
      · exact h.keys e (mem_evict (Table.mem_deleteKey.mp hrest).1)

lemma Bucketed.length_le (h : Bucketed apiKeys s) :
    s.limiter.buckets.length ≤ apiKeys.toFinset.card := by
  have hsubset : (s.limiter.buckets.map Prod.fst).toFinset ⊆ bucketKeys apiKeys := by
    intro key hkey
    obtain ⟨e, he, rfl⟩ := List.mem_map.mp (List.mem_toFinset.mp hkey)
    exact h.keys e he
  have hcard := Finset.card_le_card hsubset
  rw [List.toFinset_card_of_nodup h.distinct, List.length_map] at hcard
  exact hcard.trans Finset.card_image_le

/-- Two configured keys, and three clients of which one has no key. -/
def threeClients : List ApiRequest :=
  [⟨some (Utf8.encode "Bearer alpha"), some "10.0.0.1", 0⟩, ⟨none, some "10.0.0.2", 0⟩,
    ⟨some (Utf8.encode "Bearer beta "), some "10.0.0.3", 1 / 2⟩]

example : ((ApiSecurity.fromEnv (some "alpha, beta,") none none).log threeClients).map Prod.snd =
    [.next, .unauthorized "missing Authorization: Bearer <key> header", .next] := by
  decide +kernel

end Keys

end ApiSecurity

end Gateway

end Parda
