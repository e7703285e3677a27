import XiaomiProxy.RustStd
import XiaomiProxy.Lib.TokenBucket

/-!
# The rate limiter

`RateLimiter` of `proxy/rate_limiter.rs`: one token bucket for each client key
that was checked.  The `f64` arithmetic is read as exact rational arithmetic; a
retry-after of infinity, which a refill rate of zero leads to, is `⊤`.

* `check` — one check, as the source computes it.
* `check_buckets`, `check_isOk` — it is a draw from the bucket of its key.
* `admitted` — the checks of a run that are admitted, on which the rate of the
  limiter holds in every window.
-/

namespace XiaomiProxy

abbrev TokenBucket := TokenBuckets.Bucket Instant ℚ

structure RateLimiter extends TokenBuckets.Policy ℚ where
  buckets : String → Option TokenBucket

namespace RateLimiter

/-- `RateLimiter::new`. -/
def new (requestsPerMinute burstSize : UInt32) : RateLimiter where
  buckets _ := none
  maxTokens := burstSize.toNat
  refillRate := requestsPerMinute.toNat / 60
  maxTokens_nonneg := Nat.cast_nonneg _
  refillRate_nonneg := div_nonneg (Nat.cast_nonneg _) (by norm_num)

/-- `f64 as u32`, which rounds down and saturates. -/
def asU32 (x : ℚ) : UInt32 := UInt32.ofNat (min ⌊x⌋₊ (2 ^ 32 - 1))

/-- The seconds until `missing` tokens have come in. -/
def retryAfter (missing refillRate : ℚ) : WithTop ℚ :=
  if refillRate = 0 then ⊤ else ((missing / refillRate : ℚ) : WithTop ℚ)

/-- `RateLimiter::check`, with its clock reading: the remaining tokens, or the
seconds to wait. -/
def check (now : Instant) (limiter : RateLimiter) (key : String) :
    RateLimiter × Except (WithTop ℚ) UInt32 :=
  -- a key that was never checked gets a full bucket
  let bucket := (limiter.buckets key).getD
    { tokens := limiter.maxTokens, lastRefill := now }
  let elapsed := Duration.asSecs (now - bucket.lastRefill)
  let bucket : TokenBucket :=
    { tokens := min (bucket.tokens + elapsed * limiter.refillRate) limiter.maxTokens
      lastRefill := now }
  if 1 ≤ bucket.tokens then
    let bucket := { bucket with tokens := bucket.tokens - 1 }
    ({ limiter with buckets := Function.update limiter.buckets key (some bucket) },
      .ok (asU32 bucket.tokens))
  else
    ({ limiter with buckets := Function.update limiter.buckets key (some bucket) },
      .error (retryAfter (1 - bucket.tokens) limiter.refillRate))

/-- A check and its clock reading. -/
structure Check where
  now : Instant
  key : String
  deriving DecidableEq, Repr

/-- The checks of a list that are admitted, one applied after another. -/
def admitted : RateLimiter → List Check → List Check
  | _, [] => []
  | limiter, c :: checks =>
      let checked := limiter.check c.now c.key
      if checked.2.isOk then c :: admitted checked.1 checks
      else admitted checked.1 checks

/-! ## A check is a draw -/

/-- The readings of the monotonic clock. -/
def clock : TokenBuckets.Clock Instant ℚ where
  secs t := Duration.asSecs t
  mono := fun s t h => by
    have hcast : (s : ℚ) ≤ t := Nat.cast_le.mpr h
    simp only [Duration.asSecs]
    linarith

/-- The time since a reading, in seconds. -/
theorem asSecs_sub (s t : Instant) :
    Duration.asSecs (t - s) = max (clock.secs t - clock.secs s) 0 := by
  rcases le_total s t with h | h
  · have hle := sub_nonneg.mpr (clock.mono h)
    rw [max_eq_left hle]
    simp only [clock, Duration.asSecs, Nat.cast_sub h]
    ring
  · have hle := sub_nonpos.mpr (clock.mono h)
    rw [max_eq_right hle, Nat.sub_eq_zero_of_le h]
    simp [Duration.asSecs]

section Check

variable (now : Instant) (limiter : RateLimiter) (key : String)

/-- What the refill of a check leaves is what its bucket holds. -/
theorem refilled_eq_level :
    let bucket := (limiter.buckets key).getD
      { tokens := limiter.maxTokens, lastRefill := now }
    min (bucket.tokens + Duration.asSecs (now - bucket.lastRefill) * limiter.refillRate)
        limiter.maxTokens
      = TokenBuckets.level clock limiter.toPolicy (clock.secs now)
          (limiter.buckets key) := by
  cases hbucket : limiter.buckets key with
  | none => simp [TokenBuckets.level, Duration.asSecs]
  | some b => simp only [Option.getD_some, TokenBuckets.level, asSecs_sub]

/-- A check draws from the bucket of its key, and leaves the others. -/
theorem check_buckets :
    (limiter.check now key).1.buckets = Function.update limiter.buckets key
      (some (TokenBuckets.draw clock limiter.toPolicy now (limiter.buckets key)).1) := by
  have hlevel := refilled_eq_level now limiter key
  simp only at hlevel
  simp only [check, TokenBuckets.draw, hlevel]
  split <;> rfl

/-- A check succeeds when its draw is granted. -/
theorem check_isOk : (limiter.check now key).2.isOk
    = (TokenBuckets.draw clock limiter.toPolicy now (limiter.buckets key)).2 := by
  have hlevel := refilled_eq_level now limiter key
  simp only at hlevel
  simp only [check, TokenBuckets.draw, hlevel]
  split <;> rfl

@[simp] theorem check_toPolicy :
    (limiter.check now key).1.toPolicy = limiter.toPolicy := by
  simp only [check]
  split <;> rfl

end Check

/-! ## Many checks -/

theorem admitted_cons (limiter : RateLimiter) (c : Check) (checks : List Check) :
    admitted limiter (c :: checks)
      = (if (limiter.check c.now c.key).2.isOk then [c] else [])
        ++ admitted (limiter.check c.now c.key).1 checks := by
  rw [admitted]
  split <;> rfl

/-- The checks of one key are draws from its bucket, whatever the other keys do. -/
theorem admitted_key (limiter : RateLimiter) (key : String) (checks : List Check) :
    ((admitted limiter checks).filter fun c => c.key = key).map Check.now
      = TokenBuckets.grants clock limiter.toPolicy (limiter.buckets key)
          ((checks.filter fun c => c.key = key).map Check.now) := by
  -- the first check either draws from the bucket of the key or leaves it alone
  induction checks generalizing limiter with
  | nil => rfl
  | cons c checks ih =>
      rw [admitted_cons, List.filter_append, List.map_append, ih, check_isOk,
        check_buckets, check_toPolicy]
      by_cases hkey : c.key = key
      · rw [List.filter_cons_of_pos (by simpa using hkey), List.map_cons,
          TokenBuckets.grants_cons, hkey, Function.update_self]
        congr 1
        split <;> simp [hkey]
      · rw [List.filter_cons_of_neg (by simpa using hkey),
          Function.update_of_ne (Ne.symm hkey)]
        have hnone : (if (TokenBuckets.draw clock limiter.toPolicy c.now
            (limiter.buckets c.key)).2 then [c] else []).filter
              (fun c => c.key = key) = [] := by
          split <;> simp [hkey]
        rw [hnone]
        rfl

/-- The admitted checks of a key in a window are the draws granted in it. -/
theorem countP_admitted (limiter : RateLimiter) (key : String) (checks : List Check)
    (s t : ℚ) :
    ((admitted limiter checks).countP fun c =>
        c.key = key ∧ s ≤ Duration.asSecs c.now ∧ Duration.asSecs c.now ≤ t)
      = (TokenBuckets.grants clock limiter.toPolicy (limiter.buckets key)
          ((checks.filter fun c => c.key = key).map Check.now)).countP
            fun r => s ≤ clock.secs r ∧ clock.secs r ≤ t := by
  rw [← admitted_key, List.countP_map, List.countP_filter]
  refine List.countP_congr ?_
  intro c _
  simp only [Function.comp_apply, Bool.and_eq_true, decide_eq_true_eq, clock]
  exact and_comm.trans (and_congr_left' decide_eq_true_iff.symm)

/-- **The rate holds in every window.**  Of the checks of a key with readings from
`s` to `t` seconds, at most `burst_size + requests_per_minute * (t - s) / 60` are
admitted. -/
theorem admitted_window_le (requestsPerMinute burstSize : UInt32) {checks : List Check}
    (hsorted : (checks.map Check.now).Pairwise (· ≤ ·)) (key : String) {s t : ℚ}
    (hst : s ≤ t) :
    ((admitted (new requestsPerMinute burstSize) checks).countP fun c =>
        c.key = key ∧ s ≤ Duration.asSecs c.now ∧ Duration.asSecs c.now ≤ t : ℚ)
      ≤ burstSize.toNat + requestsPerMinute.toNat * (t - s) / 60 := by
  have hkey : ((checks.filter fun c => c.key = key).map Check.now).Pairwise (· ≤ ·) :=
    hsorted.sublist (List.filter_sublist.map Check.now)
  have hwindow := TokenBuckets.grants_window_le clock
    (new requestsPerMinute burstSize).toPolicy hst (b := none) nofun hkey
  have hcount := countP_admitted (new requestsPerMinute burstSize) key checks s t
  refine (congrArg Nat.cast hcount).trans_le (hwindow.trans_eq ?_)
  simp only [new]
  ring

/-- Two keys share a limiter of one request a second and bursts of two. -/
theorem admitted_window_two_keys :
    ((admitted (new 60 2) [⟨0, "a"⟩, ⟨0, "b"⟩, ⟨0, "a"⟩, ⟨0, "a"⟩,
        ⟨Duration.fromSecs 1, "a"⟩]).countP fun c =>
          c.key = "a" ∧ (0 : ℚ) ≤ Duration.asSecs c.now ∧
            Duration.asSecs c.now ≤ (1 : ℚ) : ℚ)
      ≤ (2 : UInt32).toNat + (60 : UInt32).toNat * (1 - 0) / 60 :=
  admitted_window_le 60 2 (by decide) "a" (by norm_num)

end RateLimiter

end XiaomiProxy
