import Mathlib.Algebra.Order.Floor.Ring
import Mathlib.Data.Rat.Floor
import Mathlib.Order.Interval.Set.UnorderedInterval
import Mathlib.Tactic.Linarith
import Mathlib.Tactic.Positivity
import Narwhal.Lib.JsMap

open jslib

namespace narwhal.portal.rate_limit

/-! ### The limiter -/

/-- Times are milliseconds. -/
structure Bucket where
  tokens : ℚ
  lastRefill : ℚ
deriving DecidableEq, Repr

structure RateLimitResult where
  allowed : Bool
  remaining : ℤ
  limit : ℚ
  retryAfterSeconds : Option ℤ
deriving DecidableEq, Repr

structure TokenBucketRateLimiter where
  buckets : JsMap String Bucket
  capacity : ℚ
  /-- tokens per second -/
  refillRate : ℚ

namespace TokenBucketRateLimiter

/-- The bucket of a key as `consume` finds it: a full one where there is none yet. -/
def refilled (s : TokenBucketRateLimiter) (key : String) (now : ℚ) : Bucket :=
  match s.buckets.get key with
  | none => ⟨s.capacity, now⟩
  | some bucket => ⟨min s.capacity (bucket.tokens + (now - bucket.lastRefill) / 1000 * s.refillRate), now⟩

def consume (s : TokenBucketRateLimiter) (key : String) (cost now : ℚ) : RateLimitResult × TokenBucketRateLimiter :=
  let bucket := s.refilled key now
  if cost ≤ bucket.tokens then
    let bucket := { bucket with tokens := bucket.tokens - cost }
    (⟨true, ⌊bucket.tokens⌋, s.capacity, none⟩, { s with buckets := s.buckets.set key bucket })
  else
    (⟨false, 0, s.capacity, some (max 1 ⌈(cost - bucket.tokens) / s.refillRate⌉)⟩,
      { s with buckets := s.buckets.set key bucket })

end TokenBucketRateLimiter

/-! ### Runs -/

structure Call where
  key : String
  cost : ℚ
  now : ℚ
deriving DecidableEq, Repr

/-- A call with its answer. -/
structure Event where
  call : Call
  result : RateLimitResult
deriving DecidableEq, Repr

/-- The limiter, and the calls made on it, the latest first. -/
structure World where
  limiter : TokenBucketRateLimiter
  log : List Event

def World.step (w : World) (call : Call) : World :=
  let (result, limiter) := w.limiter.consume call.key call.cost call.now
  ⟨limiter, ⟨call, result⟩ :: w.log⟩

theorem World.log_step (w : World) (call : Call) :
    (w.step call).log = ⟨call, (w.limiter.consume call.key call.cost call.now).1⟩ :: w.log := rfl

def World.start (capacity refillRate : ℚ) : World := ⟨⟨.empty, capacity, refillRate⟩, []⟩

def World.run (w : World) (calls : List Call) : World := calls.foldl World.step w

/-- The cost of an event if it was an allowed call of the key in the interval. -/
def Event.counted (e : Event) (key : String) (s t : ℚ) : ℚ :=
  if e.call.key = key ∧ e.result.allowed = true ∧ s ≤ e.call.now ∧ e.call.now ≤ t then e.call.cost else 0

/-- The total cost of the allowed calls of a key in the interval from `s` to `t`. -/
def allowedCost (log : List Event) (key : String) (s t : ℚ) : ℚ := (log.map fun e => e.counted key s t).sum

@[simp] theorem allowedCost_cons (e : Event) (log : List Event) (key : String) (s t : ℚ) :
    allowedCost (e :: log) key s t = e.counted key s t + allowedCost log key s t := by
  simp [allowedCost]

/-! ### One call -/

section Consume

variable {limiter : TokenBucketRateLimiter} {key other : String} {cost now : ℚ}

@[simp] theorem refilled_lastRefill : (limiter.refilled key now).lastRefill = now := by
  unfold TokenBucketRateLimiter.refilled
  split <;> rfl

theorem refilled_tokens_le : (limiter.refilled key now).tokens ≤ limiter.capacity := by
  unfold TokenBucketRateLimiter.refilled
  split
  · exact le_refl _
  · exact min_le_left _ _

/-- A call leaves the bucket of its key, refilled and without the cost of the call if that was allowed. -/
theorem consume_cases (limiter : TokenBucketRateLimiter) (key : String) (cost now : ℚ) :
    (cost ≤ (limiter.refilled key now).tokens ∧ (limiter.consume key cost now).1.allowed = true ∧
      (limiter.consume key cost now).2 =
        { limiter with buckets := limiter.buckets.set key ⟨(limiter.refilled key now).tokens - cost, now⟩ }) ∨
    ((limiter.refilled key now).tokens < cost ∧ (limiter.consume key cost now).1.allowed = false ∧
      (limiter.consume key cost now).1.retryAfterSeconds =
        some (max 1 ⌈(cost - (limiter.refilled key now).tokens) / limiter.refillRate⌉) ∧
      (limiter.consume key cost now).2 =
        { limiter with buckets := limiter.buckets.set key ⟨(limiter.refilled key now).tokens, now⟩ }) := by
  have hbucket : limiter.refilled key now = ⟨(limiter.refilled key now).tokens, now⟩ :=
    congrArg (Bucket.mk (limiter.refilled key now).tokens) refilled_lastRefill
  by_cases h : cost ≤ (limiter.refilled key now).tokens
  · left
    refine ⟨h, ?_, ?_⟩
    · rw [TokenBucketRateLimiter.consume, if_pos h]
    · rw [TokenBucketRateLimiter.consume, if_pos h, refilled_lastRefill]
  · right
    refine ⟨not_le.mp h, ?_, ?_, ?_⟩
    · rw [TokenBucketRateLimiter.consume, if_neg h]
    · rw [TokenBucketRateLimiter.consume, if_neg h]
    · rw [TokenBucketRateLimiter.consume, if_neg h, ← hbucket]

/-- The bucket a call leaves. -/
theorem get_consume (limiter : TokenBucketRateLimiter) (key : String) (cost now : ℚ) : ∃ spent, ((limiter.consume key cost now).1.allowed = true ∧ spent = cost ∧
      cost ≤ (limiter.refilled key now).tokens ∨ (limiter.consume key cost now).1.allowed = false ∧ spent = 0) ∧
    (limiter.consume key cost now).2.buckets.get key = some ⟨(limiter.refilled key now).tokens - spent, now⟩ := by
  rcases consume_cases limiter key cost now with
    ⟨hle, hallowed, hafter⟩ | ⟨-, hrefused, -, hafter⟩
  · refine ⟨cost, .inl ⟨hallowed, rfl, hle⟩, ?_⟩
    rw [hafter, JsMap.get_set, if_pos rfl]
  · refine ⟨0, .inr ⟨hrefused, rfl⟩, ?_⟩
    rw [hafter, JsMap.get_set, if_pos rfl, sub_zero]

@[simp] theorem consume_capacity : (limiter.consume key cost now).2.capacity = limiter.capacity := by
  rcases consume_cases limiter key cost now with
    ⟨-, -, hafter⟩ | ⟨-, -, -, hafter⟩ <;> rw [hafter]

@[simp] theorem consume_refillRate : (limiter.consume key cost now).2.refillRate = limiter.refillRate := by
  rcases consume_cases limiter key cost now with
    ⟨-, -, hafter⟩ | ⟨-, -, -, hafter⟩ <;> rw [hafter]

/-- A call does nothing to the bucket of another key. -/
theorem get_consume_of_ne (h : other ≠ key) :
    (limiter.consume key cost now).2.buckets.get other = limiter.buckets.get other := by
  rcases consume_cases limiter key cost now with
    ⟨-, -, hafter⟩ | ⟨-, -, -, hafter⟩
  · rw [hafter, JsMap.get_set, if_neg h]
  · rw [hafter, JsMap.get_set, if_neg h]

end Consume

/-! ### The refusal says when to come back -/

section Retry

variable {w : World}

@[simp] theorem World.run_cons (call : Call) (calls : List Call) : w.run (call :: calls) = (w.step call).run calls := rfl

theorem World.run_get_of_ne {key : String} {calls : List Call} (h : ∀ call ∈ calls, call.key ≠ key) :
    (w.run calls).limiter.buckets.get key = w.limiter.buckets.get key ∧
      (w.run calls).limiter.capacity = w.limiter.capacity ∧ (w.run calls).limiter.refillRate = w.limiter.refillRate := by
  induction calls generalizing w with
  | nil => exact ⟨rfl, rfl, rfl⟩
  | cons call calls ih =>
    obtain ⟨hget, hcapacity, hrate⟩ := ih (w := w.step call) fun c hc => h c (List.mem_cons_of_mem call hc)
    have hne := h call List.mem_cons_self
    rw [World.run_cons, hget, hcapacity, hrate]
    exact ⟨get_consume_of_ne hne.symm, consume_capacity, consume_refillRate⟩

/-- A refused call that is repeated after the time it was told, with no call of its key between, is allowed. -/
theorem World.retry_allowed {call : Call} {between : List Call} {seconds : ℤ} {later : ℚ}
    (hrate : 0 < w.limiter.refillRate) (hcost : call.cost ≤ w.limiter.capacity)
    (hrefused : (w.limiter.consume call.key call.cost call.now).1.allowed = false)
    (hretry : (w.limiter.consume call.key call.cost call.now).1.retryAfterSeconds = some seconds)
    (hbetween : ∀ c ∈ between, c.key ≠ call.key) (hlater : call.now + seconds * 1000 ≤ later) :
    (((w.step call).run between).limiter.consume call.key call.cost later).1.allowed = true := by
  obtain ⟨hget, hcapacity, hrefill⟩ := World.run_get_of_ne (w := w.step call) hbetween
  rcases consume_cases w.limiter call.key call.cost call.now with
    ⟨-, hallowed, -⟩ | ⟨hshort, -, hseconds, hafter⟩
  · rw [hallowed] at hrefused
    cases hrefused
  have hbucket : (w.step call).limiter.buckets.get call.key =
      some ⟨(w.limiter.refilled call.key call.now).tokens, call.now⟩ := by
    show (w.limiter.consume call.key call.cost call.now).2.buckets.get call.key = _
    rw [hafter, JsMap.get_set, if_pos rfl]
  rw [hseconds] at hretry
  have hwait : (call.cost - (w.limiter.refilled call.key call.now).tokens) / w.limiter.refillRate ≤ seconds := by
    have hceil := Int.le_ceil ((call.cost - (w.limiter.refilled call.key call.now).tokens) / w.limiter.refillRate)
    have hmax : (⌈(call.cost - (w.limiter.refilled call.key call.now).tokens) / w.limiter.refillRate⌉ : ℤ) ≤ seconds := by
      rw [← Option.some.inj hretry]
      exact le_max_right _ _
    exact le_trans hceil (by exact_mod_cast hmax)
  have hdeficit := (div_le_iff₀ hrate).mp hwait
  have helapsed : (seconds : ℚ) * w.limiter.refillRate ≤ (later - call.now) / 1000 * w.limiter.refillRate := by
    apply mul_le_mul_of_nonneg_right _ hrate.le
    linarith
  have htokens : call.cost ≤ (((w.step call).run between).limiter.refilled call.key later).tokens := by
    unfold TokenBucketRateLimiter.refilled
    rw [hget, hbucket, hcapacity, hrefill]
    show call.cost ≤ min (w.limiter.consume call.key call.cost call.now).2.capacity
      (_ + _ / 1000 * (w.limiter.consume call.key call.cost call.now).2.refillRate)
    rw [consume_capacity, consume_refillRate]
    apply le_min hcost
    linarith
  rcases consume_cases ((w.step call).run between).limiter call.key call.cost later with ⟨-, hallowed, -⟩ | ⟨hlow, -⟩
  · exact hallowed
  · exact absurd htokens (not_le.mpr hlow)

end Retry

/-! ### The law of a window -/

/-- What holds of a key along a run: its bucket is within bounds, and what was spent in a window together
    with what the bucket holds is no more than the capacity and what has been refilled since. -/
structure Metered (w : World) (key : String) : Prop where
  /-- the bucket was refilled at a call, and no call of the key was made after it -/
  refill : ∀ bucket, w.limiter.buckets.get key = some bucket →
    (∃ e ∈ w.log, e.call.now = bucket.lastRefill) ∧ ∀ e ∈ w.log, e.call.key = key → e.call.now ≤ bucket.lastRefill
  unseen : w.limiter.buckets.get key = none → ∀ e ∈ w.log, e.call.key ≠ key
  held : ∀ bucket, w.limiter.buckets.get key = some bucket → bucket.tokens ∈ Set.uIcc 0 w.limiter.capacity
  left : ∀ bucket, w.limiter.buckets.get key = some bucket → ∀ s ≤ bucket.lastRefill, ∀ t,
    allowedCost w.log key s t + max bucket.tokens 0 ≤
      max w.limiter.capacity 0 + w.limiter.refillRate * ((bucket.lastRefill - s) / 1000)
  window : ∀ s t, s ≤ t → allowedCost w.log key s t ≤ max w.limiter.capacity 0 + w.limiter.refillRate * ((t - s) / 1000)

theorem counted_of_ne {e : Event} {key : String} (h : e.call.key ≠ key) (s t : ℚ) : e.counted key s t = 0 :=
  if_neg fun hand => h hand.1

theorem allowedCost_eq_zero {log : List Event} {key : String} {s t : ℚ}
    (h : ∀ e ∈ log, e.call.key = key → e.call.now < s) : allowedCost log key s t = 0 := by
  induction log with
  | nil => rfl
  | cons e log ih =>
    have he : e.counted key s t = 0 := by
      apply if_neg
      rintro ⟨hkey, -, hs, -⟩
      exact absurd (h e List.mem_cons_self hkey) (not_lt.mpr hs)
    rw [allowedCost_cons, he, zero_add, ih fun e' he' => h e' (List.mem_cons_of_mem e he')]

section Law

variable {w : World} {key : String} {call : Call}

theorem metered_start (capacity refillRate : ℚ) (hrate : 0 < refillRate) (key : String) :
    Metered (World.start capacity refillRate) key where
  refill := by
    intro bucket hget
    cases hget
  unseen := by
    intro _ e he
    cases he
  held := by
    intro bucket hget
    cases hget
  left := by
    intro bucket hget
    cases hget
  window := by
    intro s t hst
    have : 0 ≤ refillRate * ((t - s) / 1000) := mul_nonneg hrate.le (div_nonneg (sub_nonneg.mpr hst) (by norm_num))
    have hcap := le_max_right capacity 0
    simp only [World.start, allowedCost, List.map_nil, List.sum_nil]
    linarith

/-- A call of another key leaves everything as it is. -/
theorem Metered.step_of_ne (h : Metered w key) (hne : call.key ≠ key) : Metered (w.step call) key := by
  have hget : (w.step call).limiter.buckets.get key = w.limiter.buckets.get key := get_consume_of_ne hne.symm
  have hcapacity : (w.step call).limiter.capacity = w.limiter.capacity := consume_capacity
  have hrate : (w.step call).limiter.refillRate = w.limiter.refillRate := consume_refillRate
  have hcost : ∀ s t, allowedCost (w.step call).log key s t = allowedCost w.log key s t := by
    intro s t
    rw [World.log_step, allowedCost_cons, counted_of_ne hne, zero_add]
  refine ⟨?_, ?_, ?_, ?_, ?_⟩
  · intro bucket hbucket
    obtain ⟨⟨e, he, hnow⟩, hlast⟩ := h.refill bucket (hget ▸ hbucket)
    refine ⟨⟨e, List.mem_cons_of_mem _ he, hnow⟩, ?_⟩
    intro e' he' hkey
    rw [World.log_step] at he'
    rcases List.mem_cons.mp he' with rfl | hmem
    · exact absurd hkey hne
    · exact hlast e' hmem hkey
  · intro hnone e he
    rw [World.log_step] at he
    rcases List.mem_cons.mp he with rfl | hmem
    · exact hne
    · exact h.unseen (hget ▸ hnone) e hmem
  · rw [hget, hcapacity]
    exact h.held
  · rw [hget, hcapacity, hrate]
    simpa only [hcost] using h.left
  · rw [hcapacity, hrate]
    simpa only [hcost] using h.window

/-- What the refill of a call adds. -/
theorem Metered.refilled_bounds (h : Metered w key) (hrate : 0 < w.limiter.refillRate) {now : ℚ}
    (hnow : ∀ e ∈ w.log, e.call.now ≤ now) :
    (w.limiter.refilled key now).tokens ∈ Set.uIcc 0 w.limiter.capacity ∧
      ∀ s ≤ now, ∀ t, allowedCost w.log key s t + max (w.limiter.refilled key now).tokens 0 ≤
        max w.limiter.capacity 0 + w.limiter.refillRate * ((now - s) / 1000) := by
  have hfull : ∀ s ≤ now, ∀ t, (∀ e ∈ w.log, e.call.key = key → e.call.now < s) →
      allowedCost w.log key s t + max (w.limiter.refilled key now).tokens 0 ≤
        max w.limiter.capacity 0 + w.limiter.refillRate * ((now - s) / 1000) := by
    intro s hs t hbefore
    have hgain : 0 ≤ w.limiter.refillRate * ((now - s) / 1000) :=
      mul_nonneg hrate.le (div_nonneg (sub_nonneg.mpr hs) (by norm_num))
    have hle : max (w.limiter.refilled key now).tokens 0 ≤ max w.limiter.capacity 0 := max_le_max_right 0 refilled_tokens_le
    rw [allowedCost_eq_zero hbefore]
    linarith
  cases hget : w.limiter.buckets.get key with
  | none =>
    have hrefilled : (w.limiter.refilled key now).tokens = w.limiter.capacity := by
      unfold TokenBucketRateLimiter.refilled
      rw [hget]
    constructor
    · rw [hrefilled]
      exact Set.right_mem_uIcc
    · intro s hs t
      exact hfull s hs t fun e he hkey => absurd hkey (h.unseen hget e he)
  | some bucket =>
    obtain ⟨⟨last, hlast, hat⟩, hcalls⟩ := h.refill bucket hget
    have hprogress : bucket.lastRefill ≤ now := hat ▸ hnow last hlast
    have hgain : 0 ≤ (now - bucket.lastRefill) / 1000 * w.limiter.refillRate :=
      mul_nonneg (div_nonneg (sub_nonneg.mpr hprogress) (by norm_num)) hrate.le
    have hrefilled : (w.limiter.refilled key now).tokens =
        min w.limiter.capacity (bucket.tokens + (now - bucket.lastRefill) / 1000 * w.limiter.refillRate) := by
      unfold TokenBucketRateLimiter.refilled
      rw [hget]
    have hheld := h.held bucket hget
    constructor
    · rw [hrefilled, Set.mem_uIcc]
      rcases Set.mem_uIcc.mp hheld with ⟨hlow, hhigh⟩ | ⟨hlow, hhigh⟩
      · left
        exact ⟨le_min (hlow.trans hhigh) (by linarith), min_le_left _ _⟩
      · right
        exact ⟨le_min (le_refl _) (by linarith), (min_le_left _ _).trans (hlow.trans hhigh)⟩
    · intro s hs t
      by_cases hsince : s ≤ bucket.lastRefill
      · have hleft := h.left bucket hget s hsince t
        have htokens : max (w.limiter.refilled key now).tokens 0 ≤
            max bucket.tokens 0 + (now - bucket.lastRefill) / 1000 * w.limiter.refillRate := by
          rw [hrefilled]
          apply max_le
          · have := le_max_left bucket.tokens 0
            exact (min_le_right _ _).trans (by linarith)
          · have := le_max_right bucket.tokens 0
            linarith
        have hsplit : w.limiter.refillRate * ((now - s) / 1000) =
            w.limiter.refillRate * ((bucket.lastRefill - s) / 1000) +
              (now - bucket.lastRefill) / 1000 * w.limiter.refillRate := by ring
        linarith
      · -- no call of the key was made since `s`
        exact hfull s hs t fun e he hkey => lt_of_le_of_lt (hcalls e he hkey) (not_le.mp hsince)

theorem Metered.step_of_eq (h : Metered w call.key) (hrate : 0 < w.limiter.refillRate) (hcost : 0 < call.cost)
    (hnow : ∀ e ∈ w.log, e.call.now ≤ call.now) : Metered (w.step call) call.key := by
  obtain ⟨hheld, hleft⟩ := h.refilled_bounds hrate hnow
  obtain ⟨spent, hspent, hget⟩ := get_consume w.limiter call.key call.cost call.now
  have hget' : (w.step call).limiter.buckets.get call.key =
      some ⟨(w.limiter.refilled call.key call.now).tokens - spent, call.now⟩ := hget
  have hcapacity : (w.step call).limiter.capacity = w.limiter.capacity := consume_capacity
  have hrefill : (w.step call).limiter.refillRate = w.limiter.refillRate := consume_refillRate
  -- what the call adds to a window is what it takes from the bucket
  have hcounted : ∀ s t, (Event.counted ⟨call, (w.limiter.consume call.key call.cost call.now).1⟩ call.key s t = 0 ∨
      Event.counted ⟨call, (w.limiter.consume call.key call.cost call.now).1⟩ call.key s t = spent ∧
        s ≤ call.now ∧ call.now ≤ t) := by
    intro s t
    unfold Event.counted
    split
    · next hand =>
      right
      rcases hspent with ⟨-, rfl, -⟩ | ⟨hrefused, -, -⟩
      · exact ⟨rfl, hand.2.2⟩
      · have hallowed := hand.2.1
        dsimp only at hallowed
        rw [hrefused] at hallowed
        cases hallowed
    · exact .inl rfl
  have hnonneg : 0 ≤ spent := by
    rcases hspent with ⟨-, rfl, -⟩ | ⟨-, rfl⟩
    · exact hcost.le
    · exact le_refl _
  have hbalance : spent + max ((w.limiter.refilled call.key call.now).tokens - spent) 0 =
      max (w.limiter.refilled call.key call.now).tokens 0 := by
    rcases hspent with ⟨-, rfl, hle⟩ | ⟨-, rfl⟩
    · rw [max_eq_left (sub_nonneg.mpr hle), max_eq_left (hcost.le.trans hle)]
      ring
    · rw [sub_zero, zero_add]
  have hafter : ∀ s ≤ call.now, ∀ t, allowedCost (w.step call).log call.key s t +
      max ((w.limiter.refilled call.key call.now).tokens - spent) 0 ≤
        max w.limiter.capacity 0 + w.limiter.refillRate * ((call.now - s) / 1000) := by
    intro s hs t
    have hbefore := hleft s hs t
    rw [World.log_step, allowedCost_cons]
    rcases hcounted s t with hzero | ⟨hpaid, -⟩
    · rw [hzero]
      linarith
    · rw [hpaid]
      linarith
  refine ⟨?_, ?_, ?_, ?_, ?_⟩
  · intro bucket hbucket
    rw [hget'] at hbucket
    obtain rfl := Option.some.inj hbucket
    refine ⟨⟨_, List.mem_cons_self, rfl⟩, ?_⟩
    intro e he _
    rw [World.log_step] at he
    rcases List.mem_cons.mp he with rfl | hmem
    · exact le_refl _
    · exact hnow e hmem
  · intro hnone
    rw [hget'] at hnone
    cases hnone
  · intro bucket hbucket
    rw [hget'] at hbucket
    obtain rfl := Option.some.inj hbucket
    rw [hcapacity]
    rcases hspent with ⟨-, rfl, hle⟩ | ⟨-, rfl⟩
    · have hbelow : (w.limiter.refilled call.key call.now).tokens ≤ w.limiter.capacity := refilled_tokens_le
      exact Set.mem_uIcc.mpr (.inl ⟨sub_nonneg.mpr hle, by linarith⟩)
    · simpa using hheld
  · intro bucket hbucket s hs t
    rw [hget'] at hbucket
    obtain rfl := Option.some.inj hbucket
    rw [hcapacity, hrefill]
    exact hafter s hs t
  · intro s t hst
    rw [hcapacity, hrefill]
    rcases hcounted s t with hzero | ⟨hpaid, hs, ht⟩
    · rw [World.log_step, allowedCost_cons, hzero, zero_add]
      exact h.window s t hst
    · have hbound := hafter s hs t
      have hpositive := le_max_right ((w.limiter.refilled call.key call.now).tokens - spent) 0
      have hlonger : w.limiter.refillRate * ((call.now - s) / 1000) ≤ w.limiter.refillRate * ((t - s) / 1000) := by
        apply mul_le_mul_of_nonneg_left _ hrate.le
        linarith
      linarith

theorem World.run_limiter (w : World) (calls : List Call) :
    (w.run calls).limiter.capacity = w.limiter.capacity ∧ (w.run calls).limiter.refillRate = w.limiter.refillRate := by
  induction calls generalizing w with
  | nil => exact ⟨rfl, rfl⟩
  | cons call calls ih =>
    obtain ⟨hcapacity, hrate⟩ := ih (w.step call)
    rw [World.run_cons, hcapacity, hrate]
    exact ⟨consume_capacity, consume_refillRate⟩

theorem metered_run {calls : List Call} (h : ∀ key, Metered w key) (hrate : 0 < w.limiter.refillRate)
    (hcosts : ∀ call ∈ calls, 0 < call.cost) (htimes : calls.Pairwise fun a b => a.now ≤ b.now)
    (hnow : ∀ e ∈ w.log, ∀ call ∈ calls, e.call.now ≤ call.now) (key : String) : Metered (w.run calls) key := by
  induction calls generalizing w with
  | nil => exact h key
  | cons call calls ih =>
    obtain ⟨hfirst, hrest⟩ := List.pairwise_cons.mp htimes
    have hrefill : (w.step call).limiter.refillRate = w.limiter.refillRate := consume_refillRate
    rw [World.run_cons]
    apply ih _ (hrefill ▸ hrate) (fun c hc => hcosts c (List.mem_cons_of_mem call hc)) hrest
    · intro e he c hc
      rw [World.log_step] at he
      rcases List.mem_cons.mp he with rfl | hmem
      · exact hfirst c hc
      · exact hnow e hmem c (List.mem_cons_of_mem call hc)
    · intro k
      by_cases hk : call.key = k
      · subst hk
        exact (h call.key).step_of_eq hrate (hcosts call List.mem_cons_self) fun e he => hnow e he call List.mem_cons_self
      · exact (h k).step_of_ne hk

/-- Every run of calls at non-decreasing times: what is allowed in a window, what a bucket holds, that keys
    do not share a bucket, and that a refused call is allowed after the time it was told. -/
theorem token_bucket_law {capacity refillRate : ℚ} (hrate : 0 < refillRate) {calls : List Call}
    (hcosts : ∀ call ∈ calls, 0 < call.cost) (htimes : calls.Pairwise fun a b => a.now ≤ b.now) :
    (∀ key s t, s ≤ t → allowedCost ((World.start capacity refillRate).run calls).log key s t ≤
      max capacity 0 + refillRate * ((t - s) / 1000)) ∧
    (∀ key bucket, ((World.start capacity refillRate).run calls).limiter.buckets.get key = some bucket →
      bucket.tokens ∈ Set.uIcc 0 capacity) ∧
    (∀ call key, key ≠ call.key → (((World.start capacity refillRate).run calls).step call).limiter.buckets.get key =
      ((World.start capacity refillRate).run calls).limiter.buckets.get key) ∧
    ∀ (call : Call) (between : List Call) (seconds : ℤ) (later : ℚ), call.cost ≤ capacity →
      (((World.start capacity refillRate).run calls).limiter.consume call.key call.cost call.now).1.allowed = false →
      (((World.start capacity refillRate).run calls).limiter.consume call.key call.cost call.now).1.retryAfterSeconds =
        some seconds →
      (∀ c ∈ between, c.key ≠ call.key) → call.now + seconds * 1000 ≤ later →
      (((((World.start capacity refillRate).run calls).step call).run between).limiter.consume
        call.key call.cost later).1.allowed = true := by
  have hmetered := metered_run (metered_start capacity refillRate hrate) hrate hcosts htimes
    (fun e he => nomatch he)
  obtain ⟨hcapacity, hrefill⟩ := World.run_limiter (World.start capacity refillRate) calls
  refine ⟨?_, ?_, ?_, ?_⟩
  · intro key s t hst
    have hwindow := (hmetered key).window s t hst
    rwa [hcapacity, hrefill] at hwindow
  · intro key bucket hget
    have hheld := (hmetered key).held bucket hget
    rwa [hcapacity] at hheld
  · intro call key hne
    exact get_consume_of_ne hne
  · intro call between seconds later hcost hrefused hretry hbetween hlater
    exact World.retry_allowed (hrefill ▸ hrate) (hcapacity ▸ hcost) hrefused hretry hbetween hlater

/-- Three calls on a bucket of two. -/
def burst : List Call := [⟨"a", 1, 0⟩, ⟨"a", 1, 0⟩, ⟨"a", 1, 500⟩]

theorem token_bucket_law_burst :
    (∀ key s t, s ≤ t → allowedCost ((World.start 2 1).run burst).log key s t ≤
      max 2 0 + 1 * ((t - s) / 1000)) ∧
    (∀ key bucket, ((World.start 2 1).run burst).limiter.buckets.get key = some bucket → bucket.tokens ∈ Set.uIcc 0 2) := by
  have hcosts : ∀ call ∈ burst, 0 < call.cost := by simp [burst]
  have hrate : (0 : ℚ) < 1 := by norm_num
  obtain ⟨hwindow, hheld, -⟩ := token_bucket_law hrate hcosts (by simp [burst])
  exact ⟨hwindow, hheld⟩

/-- With a negative capacity nothing is allowed, and that is more than the capacity. -/
theorem negative_capacity_exceeded :
    ¬ allowedCost ((World.start (-1) 1).run [⟨"a", 1, 0⟩]).log "a" 0 0 ≤ -1 + 1 * ((0 - 0) / 1000) := by
  have hzero : allowedCost ((World.start (-1) 1).run [⟨"a", 1, 0⟩]).log "a" 0 0 = 0 := by decide +kernel
  rw [hzero]
  norm_num

end Law

end narwhal.portal.rate_limit
