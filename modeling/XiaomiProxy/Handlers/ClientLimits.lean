import XiaomiProxy.Handlers.Admin
import XiaomiProxy.Middleware.RateLimit
import XiaomiProxy.Seeding

/-!
# The rate limit of a client key

The admin can give a client key a number of requests per minute of its own.  It is
stored in the table and shown in the console, and nothing else reads it: the requests of
the key are checked by the limiter of the whole program, at the configured rate.

So the limit of the key holds exactly if the configured one implies it (`Binds`).  This
is so if the configured rate is not higher; and otherwise only in two odd cases, a
burst of zero, which admits nothing, and a burst of one, with which requests are at
least the time apart that a token takes, in whole nanoseconds.
-/

namespace XiaomiProxy.RateLimit

/-- The state after the checks of a list of requests. -/
def after : AppState → List Arrival → AppState
  | state, [] => state
  | state, arrival :: arrivals => after (enter arrival state).1 arrivals

/-- Of the admitted requests of a key, those between `s` and `t` seconds are at most
`burst_size + r * (t - s) / 60`, in every window. -/
def HeldTo (limits : RateLimitConfig) (r : Int64) (key : String)
    (admitted : List RateLimiter.Check) : Prop :=
  ∀ s t : ℚ, s ≤ t → (admitted.countP fun c =>
      c.key = key ∧ s ≤ Duration.asSecs c.now ∧ Duration.asSecs c.now ≤ t : ℚ)
    ≤ limits.burstSize.toNat + r.toInt * (t - s) / 60

/-- Every key that is added with the limit `r` is held to it: after any start, any
requests before its addition, and whatever requests come after it. -/
def Enforces (config : Config) (r : Int64) : Prop :=
  ∀ boot db s, AppState.new boot config db = .ok s →
    ∀ earlier now randStr payload, payload.rateLimit = some r →
      ∀ arrivals, ((earlier ++ arrivals).map Arrival.now).Pairwise (· ≤ ·) →
        HeldTo config.rateLimit r (Admin.newClientKey randStr payload)
          (admitted (Admin.addClientKey (.ok now) randStr payload (after s earlier)).1
            arrivals)

/-- The nanoseconds a token takes to come in, rounded up. -/
def fillTime (limits : RateLimitConfig) : ℕ :=
  60000000000 ⌈/⌉ limits.requestsPerMinute.toNat

/-- The configured limits imply a limit of `r` requests per minute. -/
def Binds (limits : RateLimitConfig) (r : Int64) : Prop :=
  (limits.requestsPerMinute.toNat : ℤ) ≤ r.toInt ∨ limits.burstSize.toNat = 0 ∨
    limits.burstSize.toNat = 1 ∧ (60000000000 : ℤ) ≤ r.toInt * fillTime limits

instance (limits : RateLimitConfig) (r : Int64) : Decidable (Binds limits r) :=
  inferInstanceAs (Decidable (_ ∨ _ ∨ _))

/-! ## The configured limits are enough -/

section Enough

variable {limits : RateLimitConfig} {r : Int64} {limiter : RateLimiter}

/-- A limiter with the configured rate, none of whose buckets is overdrawn. -/
structure Configured (limits : RateLimitConfig) (limiter : RateLimiter) : Prop where
  policy : limiter.toPolicy
    = (RateLimiter.new limits.requestsPerMinute limits.burstSize).toPolicy
  nonneg : ∀ key, TokenBuckets.NonNeg (limiter.buckets key)

theorem Configured.check (h : Configured limits limiter) (now : Instant) (key : String) :
    Configured limits (limiter.check now key).1 := by
  refine ⟨(limiter.check_toPolicy now key).trans h.policy, fun key' => ?_⟩
  rw [RateLimiter.check_buckets]
  by_cases hkey : key' = key
  · rw [hkey, Function.update_self]
    exact TokenBuckets.draw_nonNeg _ _ now (h.nonneg key)
  · rw [Function.update_of_ne hkey]
    exact h.nonneg key'

theorem Configured.after {state : AppState} (h : Configured limits state.rateLimiter)
    (arrivals : List Arrival) : Configured limits (after state arrivals).rateLimiter := by
  induction arrivals generalizing state with
  | nil => exact h
  | cons arrival arrivals ih =>
      refine ih ?_
      cases hauth : Auth.auth state.clientKeys arrival.headers with
      | error e =>
          rw [enter_of_unauthorized arrival state hauth]
          exact h
      | ok clientKey =>
          rw [(enter_of_authorized arrival state hauth).1]
          exact h.check arrival.now clientKey.key

theorem configured_new {boot : Boot} {config : Config} {db : Db} {s : AppState}
    (h : AppState.new boot config db = .ok s) :
    Configured config.rateLimit s.rateLimiter := by
  rw [AppState.rateLimiter_of_new h]
  exact ⟨rfl, fun key => nofun⟩

/-- A token does not come in before the fill time. -/
theorem fillTime_le (hrate : 0 < limits.requestsPerMinute.toNat) (g now : Instant)
    (h : 1 ≤ (limits.requestsPerMinute.toNat / 60 : ℚ)
      * (RateLimiter.clock.secs now - RateLimiter.clock.secs g)) :
    RateLimiter.clock.secs g + Duration.asSecs (fillTime limits)
      ≤ RateLimiter.clock.secs now := by
  simp only [RateLimiter.clock, Duration.asSecs] at h ⊢
  have hcast : (60000000000 + limits.requestsPerMinute.toNat * g : ℚ)
      ≤ limits.requestsPerMinute.toNat * now := by
    have hscaled := mul_le_mul_of_nonneg_right h (by norm_num : (0 : ℚ) ≤ 60000000000)
    calc (60000000000 + limits.requestsPerMinute.toNat * g : ℚ)
        ≤ limits.requestsPerMinute.toNat / 60 * (now / 1000000000 - g / 1000000000)
            * 60000000000 + limits.requestsPerMinute.toNat * g := by linarith
      _ = limits.requestsPerMinute.toNat * now := by ring
  have hnat : 60000000000 + limits.requestsPerMinute.toNat * g
      ≤ limits.requestsPerMinute.toNat * now := by exact_mod_cast hcast
  have hge : g ≤ now := by
    by_contra hlt
    have hmul := Nat.mul_le_mul_left limits.requestsPerMinute.toNat (Nat.le_of_not_le hlt)
    omega
  have hfill : fillTime limits ≤ now - g := by
    rw [fillTime, ceilDiv_le_iff_le_mul hrate, Nat.mul_sub]
    omega
  have hsum : g + fillTime limits ≤ now := (Nat.le_sub_iff_add_le' hge).mp hfill
  have hsumCast : (g + fillTime limits : ℚ) ≤ now := by exact_mod_cast hsum
  linarith

theorem fillTime_pos (hrate : 0 < limits.requestsPerMinute.toNat) : 0 < fillTime limits := by
  by_contra hzero
  have hle : fillTime limits ≤ 0 := Nat.le_of_not_lt hzero
  rw [fillTime, ceilDiv_le_iff_le_mul hrate] at hle
  omega

/-- A configured rate that is not higher is enough. -/
theorem heldTo_of_rate_le (h : Configured limits limiter)
    (hrate : (limits.requestsPerMinute.toNat : ℤ) ≤ r.toInt) (key : String)
    {checks : List RateLimiter.Check}
    (hsorted : ((checks.filter fun c => c.key = key).map RateLimiter.Check.now).Pairwise
      (· ≤ ·)) :
    HeldTo limits r key (RateLimiter.admitted limiter checks) := by
  intro s t hst
  rw [RateLimiter.countP_admitted]
  refine (TokenBuckets.grants_window_le RateLimiter.clock limiter.toPolicy hst
    (h.nonneg key) hsorted).trans ?_
  have hrate' : (limits.requestsPerMinute.toNat : ℚ) ≤ r.toInt := by exact_mod_cast hrate
  have hmul := mul_le_mul_of_nonneg_right hrate' (sub_nonneg.mpr hst)
  rw [h.policy]
  simp only [RateLimiter.new]
  linarith

/-- Without a token there is nothing to admit. -/
theorem heldTo_of_burst_zero (h : Configured limits limiter) (hr : 0 ≤ r.toInt)
    (hburst : limits.burstSize.toNat = 0) (key : String)
    (checks : List RateLimiter.Check) :
    HeldTo limits r key (RateLimiter.admitted limiter checks) := by
  intro s t hst
  have hcapacity : limiter.maxTokens < 1 := by
    rw [h.policy]
    simp [RateLimiter.new, hburst]
  have hr' : (0 : ℚ) ≤ r.toInt := by exact_mod_cast hr
  rw [RateLimiter.countP_admitted, TokenBuckets.grants_eq_nil _ _ hcapacity, hburst]
  simp only [List.countP_nil, Nat.cast_zero, zero_add]
  exact div_nonneg (mul_nonneg hr' (sub_nonneg.mpr hst)) (by norm_num)

/-- The only token has to come in anew before the next request is admitted. -/
theorem heldTo_of_burst_one (h : Configured limits limiter)
    (hpos : 0 < limits.requestsPerMinute.toNat) (hburst : limits.burstSize.toNat = 1)
    (hfill : (60000000000 : ℤ) ≤ r.toInt * fillTime limits) (key : String)
    {checks : List RateLimiter.Check}
    (hsorted : ((checks.filter fun c => c.key = key).map RateLimiter.Check.now).Pairwise
      (· ≤ ·)) :
    HeldTo limits r key (RateLimiter.admitted limiter checks) := by
  intro s t hst
  have hcapacity : limiter.maxTokens = 1 := by
    rw [h.policy]
    simp [RateLimiter.new, hburst]
  have hgap : (0 : ℚ) < Duration.asSecs (fillTime limits) :=
    div_pos (Nat.cast_pos.mpr (fillTime_pos hpos)) (by norm_num)
  have hrefill : ∀ g now, 1 ≤ limiter.refillRate
      * (RateLimiter.clock.secs now - RateLimiter.clock.secs g) →
        RateLimiter.clock.secs g + Duration.asSecs (fillTime limits)
          ≤ RateLimiter.clock.secs now := by
    intro g now hfull
    rw [h.policy] at hfull
    exact fillTime_le hpos g now hfull
  have hspaced := TokenBuckets.grants_spaced_of_any hcapacity hrefill
    (limiter.buckets key) hsorted
  rw [RateLimiter.countP_admitted]
  refine (TokenBuckets.countP_window_le_of_spaced hgap hst hspaced).trans ?_
  have hfill' : (60000000000 : ℚ) ≤ r.toInt * fillTime limits := by exact_mod_cast hfill
  have hone : 1 ≤ r.toInt / 60 * Duration.asSecs (fillTime limits) := by
    simp only [Duration.asSecs]
    linarith
  have hdiv : (t - s) / Duration.asSecs (fillTime limits) ≤ r.toInt * (t - s) / 60 := by
    rw [div_le_iff₀ hgap]
    have hmul := mul_le_mul_of_nonneg_left hone (sub_nonneg.mpr hst)
    linarith
  rw [hburst, Nat.cast_one]
  linarith

/-- **Limits that bind hold every key to its own.** -/
theorem heldTo_of_binds (hr : 1 ≤ r.toInt) (hbinds : Binds limits r)
    (h : Configured limits limiter) (key : String) {checks : List RateLimiter.Check}
    (hsorted : (checks.map RateLimiter.Check.now).Pairwise (· ≤ ·)) :
    HeldTo limits r key (RateLimiter.admitted limiter checks) := by
  have hkey : ((checks.filter fun c => c.key = key).map RateLimiter.Check.now).Pairwise
      (· ≤ ·) := hsorted.sublist (List.filter_sublist.map RateLimiter.Check.now)
  by_cases hrate : (limits.requestsPerMinute.toNat : ℤ) ≤ r.toInt
  · exact heldTo_of_rate_le h hrate key hkey
  · rcases hbinds.resolve_left hrate with hburst | ⟨hburst, hfill⟩
    · exact heldTo_of_burst_zero h (by omega) hburst key checks
    · exact heldTo_of_burst_one h (by omega) hburst hfill key hkey

end Enough

/-! ## And no others are -/

section Necessary

variable {config : Config} {limits : RateLimitConfig} {r : Int64}

/-- Requests with the key `sk-1` at these times. -/
def arrivalsAt (times : List Instant) : List Arrival :=
  times.map fun now => { now, headers := [("x-api-key", HeaderValue.ofText "sk-1")] }

/-- The addition of `sk-1` with a limit. -/
def limitedTo (r : Int64) : AddClientKeyPayload :=
  { key := some "sk-1", description := none, rateLimit := some r }

theorem newClientKey_limitedTo (r : Int64) :
    Admin.newClientKey "" (limitedTo r) = "sk-1" := by
  have htrim : Str.trim "sk-1" = "sk-1" := by decide
  rw [Admin.newClientKey, limitedTo]
  simp [htrim]

/-- Once `sk-1` was added, its requests are the draws of a new bucket. -/
theorem countP_admitted_arrivalsAt {boot : Boot} {db : Db} {s : AppState}
    (h : AppState.new boot config db = .ok s) (times : List Instant) (t : ℚ) :
    ((admitted (Admin.addClientKey (.ok "now") "" (limitedTo r) s).1
        (arrivalsAt times)).countP fun c =>
          c.key = "sk-1" ∧ 0 ≤ Duration.asSecs c.now ∧ Duration.asSecs c.now ≤ t)
      = (TokenBuckets.grants RateLimiter.clock
          (RateLimiter.new config.rateLimit.requestsPerMinute
            config.rateLimit.burstSize).toPolicy none times).countP
        fun n => 0 ≤ RateLimiter.clock.secs n ∧ RateLimiter.clock.secs n ≤ t := by
  have hkey : Auth.extractKey [("x-api-key", HeaderValue.ofText "sk-1")] = some "sk-1" := by
    decide
  have hchecks : (arrivalsAt times).filterMap
      (checkOf (Admin.addClientKey (.ok "now") "" (limitedTo r) s).1.clientKeys)
      = times.map fun now => { now, key := "sk-1" } := by
    have hin : "sk-1" ∈ (Admin.addClientKey (.ok "now") "" (limitedTo r) s).1.clientKeys := by
      rw [← newClientKey_limitedTo r]
      exact Finset.mem_insert_self _ _
    rw [arrivalsAt, List.filterMap_map, ← List.filterMap_eq_map']
    refine List.filterMap_congr fun now _ => ?_
    rw [Function.comp_apply, checkOf, Auth.auth, hkey, Auth.authorize, if_pos hin]
    rfl
  have hlimiter : (Admin.addClientKey (.ok "now") "" (limitedTo r) s).1.rateLimiter
      = RateLimiter.new config.rateLimit.requestsPerMinute config.rateLimit.burstSize := by
    rw [← AppState.rateLimiter_of_new h]
    rfl
  rw [admitted_eq, hchecks, hlimiter, RateLimiter.countP_admitted]
  simp [List.filter_map, Function.comp_def, RateLimiter.new]

/-- If every key is held to its limit, so are the draws of a new bucket. -/
theorem Enforces.grants_le (h : Enforces config r) {times : List Instant}
    (hsorted : times.Pairwise (· ≤ ·)) {t : ℚ} (ht : 0 ≤ t) :
    ((TokenBuckets.grants RateLimiter.clock
        (RateLimiter.new config.rateLimit.requestsPerMinute
          config.rateLimit.burstSize).toPolicy none times).countP
      fun n => 0 ≤ RateLimiter.clock.secs n ∧ RateLimiter.clock.secs n ≤ t : ℚ)
      ≤ config.rateLimit.burstSize.toNat + r.toInt * t / 60 := by
  obtain ⟨s, hnew⟩ := AppState.exists_new_succeeding "now" config .empty
  have hsorted' : (([] ++ arrivalsAt times).map Arrival.now).Pairwise (· ≤ ·) := by
    rw [List.nil_append, arrivalsAt, List.map_map]
    simpa [Function.comp_def] using hsorted
  have hheld := h _ _ s hnew [] "now" "" (limitedTo r) rfl (arrivalsAt times) hsorted' 0 t ht
  rw [newClientKey_limitedTo, after, countP_admitted_arrivalsAt hnew, sub_zero] at hheld
  exact hheld

/-- When the `k`-th token has come in, in whole nanoseconds. -/
def due (limits : RateLimitConfig) (k : ℕ) : Instant :=
  (k * 60000000000) ⌈/⌉ limits.requestsPerMinute.toNat

theorem le_mul_due (hrate : 0 < limits.requestsPerMinute.toNat) (k : ℕ) :
    k * 60000000000 ≤ limits.requestsPerMinute.toNat * due limits k :=
  le_smul_ceilDiv hrate

theorem due_zero (limits : RateLimitConfig) : due limits 0 = 0 := by
  rw [due, Nat.zero_mul, zero_ceilDiv]

theorem due_monotone (hrate : 0 < limits.requestsPerMinute.toNat) :
    Monotone (due limits) := by
  intro j k hjk
  rw [due, ceilDiv_le_iff_le_mul hrate]
  exact (Nat.mul_le_mul_right _ hjk).trans (le_mul_due hrate k)

/-- The tokens of a minute have come in after a minute. -/
theorem due_requestsPerMinute (hrate : 0 < limits.requestsPerMinute.toNat) :
    due limits limits.requestsPerMinute.toNat = 60000000000 :=
  smul_ceilDiv hrate _

/-- The rounding delays a token by less than the next one takes. -/
theorem mul_due_lt (limits : RateLimitConfig) (k : ℕ) :
    limits.requestsPerMinute.toNat * due limits k < (k + 1) * 60000000000 := by
  have hle : limits.requestsPerMinute.toNat * due limits k
      ≤ k * 60000000000 + limits.requestsPerMinute.toNat - 1 := by
    rw [due, Nat.ceilDiv_eq_add_pred_div]
    exact Nat.mul_div_le _ _
  have hlt := limits.requestsPerMinute.toNat_lt
  omega

/-- The tokens that have come in when one is due. -/
theorem tokens_due (hrate : 0 < limits.requestsPerMinute.toNat) (k : ℕ) :
    let tokens := (limits.requestsPerMinute.toNat / 60 : ℚ)
      * (RateLimiter.clock.secs (due limits k) - RateLimiter.clock.secs (due limits 0))
    (k : ℚ) ≤ tokens ∧ tokens < k + 1 := by
  intro tokens
  have htokens : tokens
      = (limits.requestsPerMinute.toNat * due limits k : ℕ) / 60000000000 := by
    simp only [tokens, due_zero, RateLimiter.clock, Duration.asSecs]
    push_cast
    ring
  rw [htokens, le_div_iff₀ (by norm_num), div_lt_iff₀ (by norm_num)]
  exact ⟨by exact_mod_cast le_mul_due hrate k, by exact_mod_cast mul_due_lt limits k⟩

/-- The whole burst at once, and then each token of a minute as it comes in. -/
def busyMinute (limits : RateLimitConfig) : List Instant :=
  List.replicate limits.burstSize.toNat (due limits 0)
    ++ (List.range' 1 limits.requestsPerMinute.toNat).map (due limits)

theorem busyMinute_sorted (hrate : 0 < limits.requestsPerMinute.toNat) :
    (busyMinute limits).Pairwise (· ≤ ·) := by
  rw [busyMinute, List.pairwise_append]
  refine ⟨List.pairwise_replicate.mpr (Or.inr le_rfl), ?_, ?_⟩
  · exact List.pairwise_le_range'.map (due limits) fun _ _ h => due_monotone hrate h
  · intro a ha b _
    rw [List.eq_of_mem_replicate ha, due_zero]
    exact Nat.zero_le b

/-- It is over after a minute. -/
theorem busyMinute_le (hrate : 0 < limits.requestsPerMinute.toNat) :
    ∀ n ∈ busyMinute limits, n ≤ 60000000000 := by
  intro n hn
  rw [← due_requestsPerMinute hrate]
  rcases List.mem_append.mp hn with hn | hn
  · rw [List.eq_of_mem_replicate hn, due_zero]
    exact Nat.zero_le _
  · obtain ⟨k, hk, rfl⟩ := List.mem_map.mp hn
    exact due_monotone hrate (by have := (List.mem_range'_1.mp hk).2; omega)

/-- With a burst of two or more, all of it is admitted. -/
theorem grants_busyMinute (hrate : 0 < limits.requestsPerMinute.toNat)
    (hburst : 2 ≤ limits.burstSize.toNat) :
    TokenBuckets.grants RateLimiter.clock
      (RateLimiter.new limits.requestsPerMinute limits.burstSize).toPolicy none
        (busyMinute limits) = busyMinute limits := by
  have hfirst : busyMinute limits = due limits 0 :: (busyMinute limits).tail := by
    rw [busyMinute, ← Nat.sub_add_cancel (Nat.one_le_of_lt hburst), List.replicate_succ]
    rfl
  have hfull : TokenBuckets.grants RateLimiter.clock
      (RateLimiter.new limits.requestsPerMinute limits.burstSize).toPolicy none
        (busyMinute limits)
      = TokenBuckets.grants RateLimiter.clock
        (RateLimiter.new limits.requestsPerMinute limits.burstSize).toPolicy
        (some { tokens := limits.burstSize.toNat, lastRefill := due limits 0 })
        (busyMinute limits) := by
    rw [hfirst]
    exact TokenBuckets.grants_none_cons (due limits 0) (busyMinute limits).tail
  have hcapacity : (2 : ℚ) ≤ limits.burstSize.toNat := by exact_mod_cast hburst
  have hschedule := TokenBuckets.grants_onSchedule (c := RateLimiter.clock)
    (p := (RateLimiter.new limits.requestsPerMinute limits.burstSize).toPolicy)
    hcapacity (due_monotone hrate) (tokens_due hrate) limits.requestsPerMinute.toNat 0
  rw [hfull, busyMinute, TokenBuckets.grants_replicate le_rfl le_rfl]
  simp only [sub_self, mul_zero, Nat.cast_zero, Nat.zero_add] at hschedule ⊢
  rw [hschedule]

/-- With a burst of one, a second request is admitted after the fill time. -/
theorem grants_two (hrate : 0 < limits.requestsPerMinute.toNat)
    (hburst : limits.burstSize.toNat = 1) :
    TokenBuckets.grants RateLimiter.clock
      (RateLimiter.new limits.requestsPerMinute limits.burstSize).toPolicy none
        [0, fillTime limits] = [0, fillTime limits] := by
  have hcapacity : (RateLimiter.new limits.requestsPerMinute limits.burstSize).maxTokens
      = 1 := by
    simp [RateLimiter.new, hburst]
  have hfill : (60000000000 : ℚ) ≤ limits.requestsPerMinute.toNat * fillTime limits := by
    have hnat : 60000000000 ≤ limits.requestsPerMinute.toNat * fillTime limits :=
      le_smul_ceilDiv hrate
    exact_mod_cast hnat
  have hfull : (1 : ℚ) ≤ limits.requestsPerMinute.toNat / 60
      * (RateLimiter.clock.secs (fillTime limits) - RateLimiter.clock.secs 0) := by
    simp only [RateLimiter.clock, Duration.asSecs, Nat.cast_zero]
    linarith
  exact TokenBuckets.grants_pair hcapacity (Nat.zero_le _) hfull

/-- A key that is held to its limit, with a burst of one: the second request may come
as soon as the token is back. -/
theorem Enforces.le_mul_fillTime (h : Enforces config r)
    (hrate : 0 < config.rateLimit.requestsPerMinute.toNat)
    (hburst : config.rateLimit.burstSize.toNat = 1) :
    (60000000000 : ℤ) ≤ r.toInt * fillTime config.rateLimit := by
  have hnonneg : (0 : ℚ) ≤ Duration.asSecs (fillTime config.rateLimit) :=
    div_nonneg (Nat.cast_nonneg _) (by norm_num)
  have hsorted : [0, fillTime config.rateLimit].Pairwise (· ≤ ·) :=
    List.pairwise_pair.mpr (Nat.zero_le _)
  have hle := h.grants_le hsorted hnonneg
  have hzero : RateLimiter.clock.secs 0 = 0 := by
    simp [RateLimiter.clock, Duration.asSecs]
  have hlast : RateLimiter.clock.secs (fillTime config.rateLimit)
      = Duration.asSecs (fillTime config.rateLimit) := rfl
  rw [grants_two hrate hburst, hburst] at hle
  simp only [List.countP_cons, hzero, hlast, hnonneg, le_refl, and_self, decide_true,
    if_true, List.countP_nil] at hle
  simp only [Duration.asSecs] at hle
  have hcast : (60000000000 : ℚ) ≤ r.toInt * fillTime config.rateLimit := by
    push_cast at hle
    linarith
  exact_mod_cast hcast

/-- A key that is held to its limit, with a larger burst: a minute may be as busy as the
configured rate allows. -/
theorem Enforces.rate_le (h : Enforces config r)
    (hrate : 0 < config.rateLimit.requestsPerMinute.toNat)
    (hburst : 2 ≤ config.rateLimit.burstSize.toNat) :
    (config.rateLimit.requestsPerMinute.toNat : ℤ) ≤ r.toInt := by
  have hle := h.grants_le (busyMinute_sorted hrate) (by norm_num : (0 : ℚ) ≤ 60)
  have hall : (busyMinute config.rateLimit).countP
      (fun n => 0 ≤ RateLimiter.clock.secs n ∧ RateLimiter.clock.secs n ≤ 60)
      = (busyMinute config.rateLimit).length := by
    rw [List.countP_eq_length]
    intro n hn
    have hn' : (n : ℚ) ≤ 60000000000 := by exact_mod_cast busyMinute_le hrate n hn
    have hlo : 0 ≤ RateLimiter.clock.secs n :=
      div_nonneg (Nat.cast_nonneg _) (by norm_num)
    have hhi : RateLimiter.clock.secs n ≤ 60 := by
      simp only [RateLimiter.clock, Duration.asSecs]
      linarith
    simp [hlo, hhi]
  rw [grants_busyMinute hrate hburst, hall, busyMinute] at hle
  simp only [List.length_append, List.length_replicate, List.length_map,
    List.length_range'] at hle
  have hcast : (config.rateLimit.requestsPerMinute.toNat : ℚ) ≤ r.toInt := by
    push_cast at hle
    linarith
  exact_mod_cast hcast

end Necessary

/-- **A key is held to its own limit exactly if the configured limits imply it.** -/
theorem enforces_iff (config : Config) (r : Int64) (hr : 1 ≤ r.toInt) :
    Enforces config r ↔ Binds config.rateLimit r := by
  constructor
  · intro h
    by_cases hhigher : (config.rateLimit.requestsPerMinute.toNat : ℤ) ≤ r.toInt
    · exact Or.inl hhigher
    · have hrate : 0 < config.rateLimit.requestsPerMinute.toNat := by omega
      rcases Nat.lt_or_ge config.rateLimit.burstSize.toNat 2 with hburst | hburst
      · rcases Nat.lt_or_ge config.rateLimit.burstSize.toNat 1 with hzero | hone
        · exact Or.inr (Or.inl (by omega))
        · have hburst : config.rateLimit.burstSize.toNat = 1 := by omega
          exact Or.inr (Or.inr ⟨hburst, h.le_mul_fillTime hrate hburst⟩)
      · exact Or.inl (h.rate_le hrate hburst)
  · intro hbinds boot db s hnew earlier now randStr payload hlimit arrivals hsorted
    have hconfigured := (configured_new hnew).after earlier
    rw [admitted_eq]
    refine heldTo_of_binds hr hbinds hconfigured _ ?_
    rw [List.map_append] at hsorted
    have harrivals := (List.pairwise_append.mp hsorted).2.1
    rw [List.pairwise_map] at harrivals ⊢
    rw [List.pairwise_filterMap]
    refine harrivals.imp fun {a b} hab c hc d hd => ?_
    -- a check reads the clock when its request does
    have hnow : ∀ (a : Arrival) (c : RateLimiter.Check) (keys : Finset String),
        checkOf keys a = some c → c.now = a.now := by
      intro a c keys hcheck
      obtain ⟨clientKey, -, rfl⟩ := Option.map_eq_some_iff.mp hcheck
      rfl
    rw [hnow a c _ hc, hnow b d _ hd]
    exact hab

/-- With the default limits, a key may be given the default rate of 60 requests per
minute. -/
theorem enforces_default : Enforces Config.withoutFile 60 :=
  (enforces_iff Config.withoutFile 60 (by decide)).mpr (by decide)

/-- One request a second, and no bursts. -/
def oneASecond : Config :=
  { Config.withoutFile with rateLimit := { requestsPerMinute := 60, burstSize := 1 } }

/-- A key is added with a limit of one request per minute, and two requests that are a
second apart are both admitted. -/
theorem not_enforces :
    ∃ s, AppState.new (.succeeding "now") oneASecond .empty = .ok s ∧
      admitted (Admin.addClientKey (.ok "now") "" (limitedTo 1) s).1
          (arrivalsAt [0, 1000000000])
        = [{ now := 0, key := "sk-1" }, { now := 1000000000, key := "sk-1" }] ∧
      ¬ Enforces oneASecond 1 := by
  refine ⟨_, rfl, by decide +kernel, fun h => ?_⟩
  exact absurd (h.le_mul_fillTime (by decide) (by decide)) (by decide)

end XiaomiProxy.RateLimit
