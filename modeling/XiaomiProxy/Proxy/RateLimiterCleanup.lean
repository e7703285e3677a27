import XiaomiProxy.Lib.Runs
import XiaomiProxy.Middleware.Quota

/-!
# Cleaning up the rate limiter

`RateLimiter::cleanup_stale` of `proxy/rate_limiter.rs`, which drops the buckets that
were not checked for an hour, among the checks of a run.

A key whose bucket is dropped gets a full one at its next check.  Nobody sees that if the
dropped bucket would be full by then too (`results_eq_iff`), and it always is if an hour
fills a bucket, whatever was taken out of it (`fullIfDropped_of_fills`).  Otherwise a key
that spends its burst and comes back after a cleanup is told more than it would be without
(`not_unseen_spendAndReturn`).  `unseen_iff` puts both together.
-/

namespace XiaomiProxy

namespace RateLimiter

/-- `RateLimiter::cleanup_stale`, with its clock reading.  The cutoff may be a time before
the first reading of the clock. -/
def cleanupStale (now : Instant) (limiter : RateLimiter) : RateLimiter :=
  let cutoff : ℤ := (now : ℤ) - (Duration.fromSecs 3600 : ℕ)
  { limiter with
    buckets := fun key => (limiter.buckets key).filter fun bucket =>
      decide (cutoff < (bucket.lastRefill : ℤ)) }

/-- What happens to a limiter. -/
inductive Op where
  | check (c : Check)
  | cleanup (now : Instant)
  deriving DecidableEq, Repr

namespace Op

/-- The clock reading of a check or a cleanup. -/
def now : Op → Instant
  | .check c => c.now
  | .cleanup now => now

/-- The check that is made, if any. -/
def check? : Op → Option Check
  | .check c => some c
  | .cleanup _ => none

end Op

/-- What the checks of a run return. -/
def results : RateLimiter → List Op → List (Except (WithTop ℚ) UInt32)
  | _, [] => []
  | limiter, .check c :: ops =>
      let checked := limiter.check c.now c.key
      checked.2 :: results checked.1 ops
  | limiter, .cleanup now :: ops => results (limiter.cleanupStale now) ops

/-- A run without its cleanups. -/
def uncleaned (ops : List Op) : List Op := (ops.filterMap Op.check?).map Op.check

/-- The checks of a run return the same without its cleanups. -/
def Unseen (limiter : RateLimiter) (ops : List Op) : Prop :=
  results limiter ops = results limiter (uncleaned ops)

/-! ## Two limiters side by side -/

/-- A limiter that is cleaned up, and one that is not. -/
def sideBySide : RateLimiter × RateLimiter → Op → Option (RateLimiter × RateLimiter)
  | (cleaned, kept), .check c =>
      some ((cleaned.check c.now c.key).1, (kept.check c.now c.key).1)
  | (cleaned, kept), .cleanup now => some (cleaned.cleanupStale now, kept)

/-- A check that finds its bucket dropped would find it full. -/
def FullIfDropped : RateLimiter × RateLimiter → Op → Prop
  | (cleaned, kept), .check c =>
      cleaned.buckets c.key = none →
        TokenBuckets.Full clock kept.toPolicy (clock.secs c.now) (kept.buckets c.key)
  | _, .cleanup _ => True

/-- The two limiters have the same buckets, but for dropped ones. -/
structure Agree (cleaned kept : RateLimiter) : Prop where
  policy : cleaned.toPolicy = kept.toPolicy
  buckets : ∀ key, cleaned.buckets key = kept.buckets key ∨ cleaned.buckets key = none
  nonNeg : ∀ key, TokenBuckets.NonNeg (kept.buckets key)

section Step

variable {cleaned kept : RateLimiter}

theorem agree_new (requestsPerMinute burstSize : UInt32) :
    Agree (new requestsPerMinute burstSize) (new requestsPerMinute burstSize) where
  policy := rfl
  buckets _ := Or.inl rfl
  nonNeg _ := nofun

theorem cleanupStale_buckets (now : Instant) (limiter : RateLimiter) (key : String) :
    (limiter.cleanupStale now).buckets key = (limiter.buckets key).filter fun bucket =>
      decide ((now : ℤ) - (Duration.fromSecs 3600 : ℕ) < (bucket.lastRefill : ℤ)) := rfl

/-- What a cleanup drops was not checked for an hour. -/
theorem idle_of_cleanupStale {now : Instant} {limiter : RateLimiter} {key : String}
    {b : TokenBucket} (hb : limiter.buckets key = some b)
    (hdropped : (limiter.cleanupStale now).buckets key = none) :
    b.lastRefill + Duration.fromSecs 3600 ≤ now := by
  rw [cleanupStale_buckets, hb, Option.filter_eq_none_iff] at hdropped
  have hold := hdropped b rfl
  rw [decide_eq_true_iff, not_lt, le_sub_iff_add_le] at hold
  exact_mod_cast hold

theorem Agree.cleanup (h : Agree cleaned kept) (now : Instant) :
    Agree (cleaned.cleanupStale now) kept where
  policy := h.policy
  buckets key := by
    cases hb : cleaned.buckets key with
    | none =>
        right
        rw [cleanupStale_buckets, hb]
        rfl
    | some b =>
        have hkept := (h.buckets key).resolve_right (by simp [hb])
        rw [cleanupStale_buckets, hb, Option.filter_some]
        split
        · exact Or.inl (hb.symm.trans hkept)
        · exact Or.inr rfl
  nonNeg := h.nonNeg

/-- What a check of the two limiters finds. -/
theorem Agree.found_eq (h : Agree cleaned kept) {c : Check}
    (hfull : FullIfDropped (cleaned, kept) (.check c)) :
    cleaned.found c.now c.key = kept.found c.now c.key := by
  rw [found, found, h.policy]
  rcases h.buckets c.key with hsame | hdropped
  · rw [hsame]
  · have hkept := hfull hdropped
    rw [hdropped, TokenBuckets.full_none]
    exact hkept.symm

/-- A check keeps the agreement, unless it finds a bucket dropped that was not full. -/
theorem Agree.check (h : Agree cleaned kept) {c : Check}
    (hfull : FullIfDropped (cleaned, kept) (.check c)) :
    Agree (cleaned.check c.now c.key).1 (kept.check c.now c.key).1 where
  policy := by
    rw [check_toPolicy, check_toPolicy, h.policy]
  buckets key := by
    have hfound := h.found_eq hfull
    rw [found, found, h.policy] at hfound
    have hdraw := TokenBuckets.draw_congr hfound
    rw [check_buckets, check_buckets, h.policy, hdraw]
    by_cases hkey : key = c.key
    · left
      rw [hkey, Function.update_self, Function.update_self]
    · rw [Function.update_of_ne hkey, Function.update_of_ne hkey]
      exact h.buckets key
  nonNeg key := by
    rw [check_buckets]
    by_cases hkey : key = c.key
    · rw [hkey, Function.update_self]
      exact TokenBuckets.draw_nonNeg clock kept.toPolicy c.now (h.nonNeg c.key)
    · rw [Function.update_of_ne hkey]
      exact h.nonNeg key

end Step

/-! ## What the checks tell -/

section Results

variable {cleaned kept : RateLimiter}

/-- Checks that find the same return the same. -/
theorem check_congr {c : Check} (hrate : cleaned.refillRate = kept.refillRate)
    (hfound : cleaned.found c.now c.key = kept.found c.now c.key) :
    (cleaned.check c.now c.key).2 = (kept.check c.now c.key).2 := by
  by_cases h : 1 ≤ kept.found c.now c.key
  · rw [check_of_found kept c.now c.key h, check_of_found cleaned c.now c.key (hfound ▸ h),
      hfound]
  · rw [check_of_not_found kept c.now c.key h,
      check_of_not_found cleaned c.now c.key (hfound ▸ h), hfound, hrate]

/-- **A dropped bucket shows.**  A check that finds a new bucket returns what it would
return without the cleanups, exactly if the bucket would be full. -/
theorem Agree.check_eq_iff (h : Agree cleaned kept) {burst : UInt32}
    (hburst : kept.maxTokens = burst.toNat) (c : Check) :
    (cleaned.check c.now c.key).2 = (kept.check c.now c.key).2
      ↔ FullIfDropped (cleaned, kept) (.check c) := by
  constructor
  · intro heq hdropped
    have hnew : cleaned.found c.now c.key = burst.toNat := by
      rw [found, hdropped, h.policy, TokenBuckets.full_none, hburst]
    have hle : kept.found c.now c.key ≤ burst.toNat :=
      hburst ▸ TokenBuckets.level_le clock kept.toPolicy (clock.secs c.now)
        (kept.buckets c.key)
    have hnonneg : 0 ≤ kept.found c.now c.key :=
      TokenBuckets.level_nonneg clock kept.toPolicy (h.nonNeg c.key) _
    rw [TokenBuckets.Full, hburst]
    refine le_antisymm hle ?_
    by_cases hfound : 1 ≤ kept.found c.now c.key
    · -- both are told a number, and the one of the new bucket is one less than the burst
      have hnew' : 1 ≤ cleaned.found c.now c.key := hnew ▸ hfound.trans hle
      rw [check_of_found kept c.now c.key hfound, check_of_found cleaned c.now c.key hnew',
        hnew] at heq
      have hone : 1 ≤ burst.toNat := by exact_mod_cast hfound.trans hle
      have hcast : ((burst.toNat - 1 : ℕ) : ℚ) = (burst.toNat : ℚ) - 1 := by
        rw [Nat.cast_sub hone, Nat.cast_one]
      have htold : burst.toNat - 1 ≤ (asU32 ((burst.toNat : ℚ) - 1)).toNat :=
        le_asU32 (lt_of_le_of_lt (Nat.sub_le _ _) burst.toNat_lt) hcast.le
      rw [Except.ok.inj heq] at htold
      have hleft := asU32_le (sub_nonneg.mpr hfound)
      have hall : ((burst.toNat - 1 : ℕ) : ℚ) ≤ kept.found c.now c.key - 1 :=
        (Nat.cast_le.mpr htold).trans hleft
      rw [hcast] at hall
      exact sub_le_sub_iff_right 1 |>.mp hall
    · -- a new bucket that holds no token either belongs to a limiter without burst
      have hnew' : ¬ 1 ≤ cleaned.found c.now c.key := by
        intro htoken
        rw [check_of_not_found kept c.now c.key hfound,
          check_of_found cleaned c.now c.key htoken] at heq
        cases heq
      have hzero : burst.toNat = 0 := by
        rw [hnew] at hnew'
        by_contra hpos
        exact hnew' (Nat.one_le_cast.mpr (Nat.one_le_iff_ne_zero.mpr hpos))
      rw [hzero, Nat.cast_zero]
      exact hnonneg
  · intro hfull
    exact check_congr (congrArg TokenBuckets.Policy.refillRate h.policy) (h.found_eq hfull)

/-- **Cleanups are unseen exactly if every check that finds its bucket dropped would find
it full.** -/
theorem Agree.results_eq_iff (h : Agree cleaned kept) {burst : UInt32}
    (hburst : kept.maxTokens = burst.toNat) (ops : List Op) :
    results cleaned ops = results kept (uncleaned ops)
      ↔ Runs.Along sideBySide FullIfDropped (cleaned, kept) ops := by
  induction ops generalizing cleaned kept with
  | nil => exact iff_of_true rfl trivial
  | cons op ops ih =>
      cases op with
      | check c =>
          have hcons : uncleaned (.check c :: ops) = .check c :: uncleaned ops := rfl
          have hstep : sideBySide (cleaned, kept) (.check c)
            = some ((cleaned.check c.now c.key).1, (kept.check c.now c.key).1) := rfl
          rw [hcons, Runs.along_cons_of_some hstep, results, results, List.cons.injEq,
            h.check_eq_iff hburst]
          refine and_congr_right fun hfull => ih (h.check hfull) ?_
          rw [check_toPolicy]
          exact hburst
      | cleanup now =>
          have hcons : uncleaned (.cleanup now :: ops) = uncleaned ops := rfl
          have hstep : sideBySide (cleaned, kept) (.cleanup now)
            = some (cleaned.cleanupStale now, kept) := rfl
          rw [hcons, Runs.along_cons_of_some hstep, results, ih (h.cleanup now) hburst]
          exact (and_iff_right trivial).symm

end Results

/-! ## Limiters that an hour fills -/

section Hour

variable {cleaned kept : RateLimiter}

/-- If an hour fills a bucket, every dropped bucket is full. -/
theorem Agree.fullIfDropped_of_fills (h : Agree cleaned kept)
    (hfills : kept.maxTokens ≤ kept.refillRate * 3600) {t : Instant}
    (hdropped : ∀ key, cleaned.buckets key = none →
      TokenBuckets.Full clock kept.toPolicy (clock.secs t) (kept.buckets key))
    {ops : List Op} (hsorted : (ops.map Op.now).Pairwise (· ≤ ·))
    (hfrom : ∀ op ∈ ops, t ≤ op.now) :
    Runs.Along sideBySide FullIfDropped (cleaned, kept) ops := by
  induction ops generalizing cleaned kept t with
  | nil => trivial
  | cons op ops ih =>
      rw [List.map_cons, List.pairwise_cons] at hsorted
      obtain ⟨hnow, hsorted⟩ := hsorted
      have hnext : ∀ op' ∈ ops, op.now ≤ op'.now :=
        fun op' hop' => hnow _ (List.mem_map_of_mem hop')
      -- what was full at `t` still is
      have hstill : ∀ key, cleaned.buckets key = none →
          TokenBuckets.Full clock kept.toPolicy (clock.secs op.now) (kept.buckets key) :=
        fun key hnone => (hdropped key hnone).mono (clock.mono (hfrom op List.mem_cons_self))
      cases op with
      | check c =>
          have hfull : FullIfDropped (cleaned, kept) (.check c) := hstill c.key
          refine ⟨hfull, fun s' hs' => ?_⟩
          cases hs'
          refine ih (h.check hfull) (by simpa using hfills) (fun key hnone => ?_) hsorted hnext
          have hkey : key ≠ c.key := by
            rintro rfl
            rw [check_buckets, Function.update_self] at hnone
            cases hnone
          rw [check_buckets, Function.update_of_ne hkey] at hnone ⊢
          rw [check_toPolicy]
          exact hstill key hnone
      | cleanup now =>
          refine ⟨trivial, fun s' hs' => ?_⟩
          cases hs'
          refine ih (h.cleanup now) hfills (fun key hnone => ?_) hsorted hnext
          cases hb : cleaned.buckets key with
          | none => exact hstill key hb
          | some b =>
              have hkept := (h.buckets key).resolve_right (by simp [hb])
              rw [hb] at hkept
              rw [← hkept]
              have hidle := clock.mono (idle_of_cleanupStale hb hnone)
              refine TokenBuckets.full_of_idle (h.nonNeg key b hkept.symm) hfills ?_
              refine le_trans (le_of_eq ?_) hidle
              simp only [clock, Duration.asSecs, Duration.fromSecs]
              push_cast
              ring

/-- Without cleanups the limiters stay the same. -/
theorem run_checks (limiter : RateLimiter) (checks : List Check) :
    Runs.run sideBySide (limiter, limiter) (checks.map Op.check)
      = some (after limiter checks, after limiter checks) := by
  induction checks generalizing limiter with
  | nil => rfl
  | cons c checks ih => exact ih (limiter.check c.now c.key).1

/-- A key spends its burst, and comes back after a cleanup. -/
def spendAndReturn (burst : ℕ) : List Op :=
  (List.replicate burst (⟨0, "a"⟩ : Check)).map Op.check
    ++ [.cleanup (Duration.fromSecs 3600), .check ⟨Duration.fromSecs 3600, "a"⟩]

theorem spendAndReturn_sorted (burst : ℕ) :
    ((spendAndReturn burst).map Op.now).Pairwise (· ≤ ·) := by
  rw [spendAndReturn, List.map_append, List.map_map, List.map_replicate,
    List.pairwise_append]
  refine ⟨List.pairwise_replicate.mpr (Or.inr le_rfl), by simp [Op.now], ?_⟩
  intro t ht t' _
  rw [(List.mem_replicate.mp ht).2]
  exact Nat.zero_le t'

/-- A key that spent its burst has an empty bucket. -/
theorem buckets_spent {requestsPerMinute burstSize : UInt32} (hburst : 0 < burstSize.toNat) :
    (after (new requestsPerMinute burstSize)
        (List.replicate burstSize.toNat ⟨0, "a"⟩)).buckets "a"
      = some { tokens := 0, lastRefill := 0 } := by
  obtain ⟨n, hn⟩ := Nat.exists_eq_succ_of_ne_zero hburst.ne'
  have hreadings : readings "a" (List.replicate burstSize.toNat ⟨0, "a"⟩)
      = List.replicate (n + 1) 0 := by
    rw [hn, readings, List.filter_replicate_of_pos (by simp), List.map_replicate]
  have hcapacity : (new requestsPerMinute burstSize).maxTokens = ((n + 1 : ℕ) : ℚ) :=
    congrArg Nat.cast hn
  rw [after_buckets, hreadings]
  refine (TokenBuckets.drawn_replicate_none hcapacity.ge).trans ?_
  rw [hcapacity, sub_self]

/-- **If an hour does not fill a bucket, a cleanup can be seen.** -/
theorem not_unseen_spendAndReturn {requestsPerMinute burstSize : UInt32}
    (h : 60 * requestsPerMinute.toNat < burstSize.toNat) :
    ¬ Unseen (new requestsPerMinute burstSize) (spendAndReturn burstSize.toNat) := by
  intro hunseen
  have hspent := @buckets_spent requestsPerMinute burstSize (lt_of_le_of_lt (Nat.zero_le _) h)
  rw [Unseen, (agree_new requestsPerMinute burstSize).results_eq_iff rfl, spendAndReturn,
    Runs.along_append (run_checks _ _)] at hunseen
  obtain ⟨-, -, hrest⟩ := hunseen
  obtain ⟨hlast, -⟩ := hrest _ rfl
  -- the cleanup drops the empty bucket, and an hour did not fill it
  have hfull := hlast (by rw [cleanupStale_buckets, hspent]; rfl)
  have hhour : max (3600000000000 / 1000000000 : ℚ) 0 = 3600 := by norm_num
  have hgained : (burstSize.toNat : ℚ) ≤ 3600 * (requestsPerMinute.toNat / 60) := by
    have hlevel := hfull.ge
    rw [after_toPolicy, hspent] at hlevel
    refine hlevel.trans ((min_le_left _ _).trans_eq ?_)
    simp [clock, Duration.asSecs, Duration.fromSecs, new, hhour]
  have hfew : (burstSize.toNat : ℚ) ≤ (60 * requestsPerMinute.toNat : ℕ) := by
    push_cast
    linarith
  exact absurd (Nat.cast_le.mp hfew) (not_le.mpr h)

/-- **Cleanups.**  The checks of a run return the same without its cleanups, exactly if
every one that finds its bucket dropped would find it full; and they do so in every run,
exactly if an hour fills a bucket. -/
theorem unseen_iff (requestsPerMinute burstSize : UInt32) :
    (∀ ops : List Op, Unseen (new requestsPerMinute burstSize) ops ↔
      Runs.Along sideBySide FullIfDropped
        (new requestsPerMinute burstSize, new requestsPerMinute burstSize) ops) ∧
    ((∀ ops : List Op, (ops.map Op.now).Pairwise (· ≤ ·) →
        Unseen (new requestsPerMinute burstSize) ops) ↔
      burstSize.toNat ≤ 60 * requestsPerMinute.toNat) := by
  have hagree := agree_new requestsPerMinute burstSize
  refine ⟨fun ops => hagree.results_eq_iff rfl ops, ?_⟩
  constructor
  · intro hall
    by_contra hfew
    exact not_unseen_spendAndReturn (not_le.mp hfew)
      (hall _ (spendAndReturn_sorted burstSize.toNat))
  · intro hfills ops hsorted
    refine (hagree.results_eq_iff rfl ops).mpr ?_
    refine hagree.fullIfDropped_of_fills ?_ (t := 0) (fun _ _ => TokenBuckets.full_none _)
      hsorted fun op _ => Nat.zero_le op.now
    have hcast : (burstSize.toNat : ℚ) ≤ (60 * requestsPerMinute.toNat : ℕ) :=
      Nat.cast_le.mpr hfills
    rw [Nat.cast_mul] at hcast
    refine hcast.trans_eq ?_
    simp only [new]
    push_cast
    ring

/-- A key that may do one request a minute, with a burst of 61, and that spends them all,
is told of 59 more an hour later; after a cleanup, of 60. -/
theorem seen_one_and_sixty_one :
    (results (new 1 61) (spendAndReturn 61)).getLast? = some (.ok 60) ∧
      (results (new 1 61) (uncleaned (spendAndReturn 61))).getLast? = some (.ok 59) ∧
      ¬ ∀ (requestsPerMinute burstSize : UInt32) (ops : List Op),
        (ops.map Op.now).Pairwise (· ≤ ·) → Unseen (new requestsPerMinute burstSize) ops := by
  have hcleaned : (results (new 1 61) (spendAndReturn 61)).getLast? = some (.ok 60) := by
    decide +kernel
  have hkept : (results (new 1 61) (uncleaned (spendAndReturn 61))).getLast?
      = some (.ok 59) := by
    decide +kernel
  refine ⟨hcleaned, hkept, fun hall => ?_⟩
  have hsame := hall 1 61 _ (spendAndReturn_sorted 61)
  rw [hsame, hkept] at hcleaned
  cases hcleaned

end Hour

end RateLimiter

end XiaomiProxy
