import XiaomiProxy.Middleware.RateLimit

/-!
# What the rate limit tells a client

An admitted request is told how many requests remain, and a rejected one how long to
wait.  Both hold good whatever the other keys do in the meantime:

* `isOk_iff_waited` — the next request of the key is admitted exactly if the wait is
  over, however many requests of the key are rejected before that.
* `remaining_admitted` — as many requests as remain are admitted, whenever they come.

A limiter is known to the checks of a key as the bucket of that key, and to the bucket
the checks are draws (`after_buckets`).
-/

namespace XiaomiProxy

namespace RateLimiter

/-- The limiter after checks. -/
def after : RateLimiter → List Check → RateLimiter
  | limiter, [] => limiter
  | limiter, c :: checks => after (limiter.check c.now c.key).1 checks

/-- The readings of the checks of a key. -/
def readings (key : String) (checks : List Check) : List Instant :=
  (checks.filter fun c => c.key = key).map Check.now

theorem readings_cons (key : String) (c : Check) (checks : List Check) :
    readings key (c :: checks)
      = if c.key = key then c.now :: readings key checks else readings key checks := by
  by_cases hkey : c.key = key <;> simp [readings, hkey]

theorem mem_of_mem_readings {key : String} {checks : List Check} {r : Instant}
    (h : r ∈ readings key checks) : ∃ c ∈ checks, c.now = r := by
  obtain ⟨c, hc, hr⟩ := List.mem_map.mp h
  exact ⟨c, (List.mem_filter.mp hc).1, hr⟩

theorem readings_sorted {checks : List Check}
    (hsorted : (checks.map Check.now).Pairwise (· ≤ ·)) (key : String) :
    (readings key checks).Pairwise (· ≤ ·) :=
  hsorted.sublist (List.filter_sublist.map Check.now)

section After

variable (limiter : RateLimiter) (key : String)

@[simp] theorem after_toPolicy (checks : List Check) :
    (after limiter checks).toPolicy = limiter.toPolicy := by
  induction checks generalizing limiter with
  | nil => rfl
  | cons c checks ih => rw [after, ih, check_toPolicy]

theorem after_append (checks rest : List Check) :
    after limiter (checks ++ rest) = after (after limiter checks) rest := by
  induction checks generalizing limiter with
  | nil => rfl
  | cons c checks ih => exact ih (limiter.check c.now c.key).1

/-- The checks of a key are draws from its bucket, and the others leave it alone. -/
theorem after_buckets (checks : List Check) : (after limiter checks).buckets key
    = TokenBuckets.drawn clock limiter.toPolicy (limiter.buckets key)
        (readings key checks) := by
  induction checks generalizing limiter with
  | nil => rfl
  | cons c checks ih =>
      rw [after, ih, check_buckets, check_toPolicy, readings_cons]
      by_cases hkey : c.key = key
      · rw [if_pos hkey, TokenBuckets.drawn, hkey, Function.update_self]
      · rw [if_neg hkey, Function.update_of_ne (Ne.symm hkey)]

end After

/-! ## What a check returns -/

/-- What a check finds in its bucket. -/
abbrev found (limiter : RateLimiter) (now : Instant) (key : String) : ℚ :=
  TokenBuckets.level clock limiter.toPolicy (clock.secs now) (limiter.buckets key)

section Check

variable (limiter : RateLimiter) (now : Instant) (key : String)

/-- A check that finds a token takes it. -/
theorem check_of_found (h : 1 ≤ limiter.found now key) :
    (limiter.check now key).2 = .ok (asU32 (limiter.found now key - 1)) := by
  have hlevel := refilled_eq_level now limiter key
  simp only at hlevel
  simp only [check, hlevel, if_pos h]

/-- One that finds none is told when the missing part has come in. -/
theorem check_of_not_found (h : ¬ 1 ≤ limiter.found now key) :
    (limiter.check now key).2
      = .error (retryAfter (1 - limiter.found now key) limiter.refillRate) := by
  have hlevel := refilled_eq_level now limiter key
  simp only at hlevel
  simp only [check, hlevel, if_neg h]

theorem check_isOk_iff :
    (limiter.check now key).2.isOk = true ↔ 1 ≤ limiter.found now key := by
  by_cases h : 1 ≤ limiter.found now key
  · rw [check_of_found limiter now key h]
    exact iff_of_true rfl h
  · rw [check_of_not_found limiter now key h]
    exact iff_of_false Bool.false_ne_true h

end Check

/-- `f64 as u32` of a number that is at least a `u32`. -/
theorem le_asU32 {n : ℕ} {x : ℚ} (hn : n < 2 ^ 32) (h : (n : ℚ) ≤ x) :
    n ≤ (asU32 x).toNat := by
  have hfloor : n ≤ ⌊x⌋₊ := Nat.le_floor h
  have hsmall : min ⌊x⌋₊ (2 ^ 32 - 1) < 2 ^ 32 := by omega
  rw [asU32, UInt32.toNat_ofNat_of_lt' hsmall]
  omega

/-- `f64 as u32` rounds down. -/
theorem asU32_le {x : ℚ} (h : 0 ≤ x) : ((asU32 x).toNat : ℚ) ≤ x := by
  have hsmall : min ⌊x⌋₊ (2 ^ 32 - 1) < 2 ^ 32 := by omega
  rw [asU32, UInt32.toNat_ofNat_of_lt' hsmall]
  exact (Nat.cast_le.mpr (min_le_left _ _)).trans (Nat.floor_le h)

/-! ## A rejected check -/

section Rejected

variable {limiter : RateLimiter} {now now' : Instant} {key : String} {r : ℚ}

/-- A limiter that ever admitted a request has buckets of a token or more. -/
theorem one_le_maxTokens_of_admitted {checks : List Check} {a : Check}
    (h : a ∈ admitted limiter checks) : 1 ≤ limiter.maxTokens := by
  by_contra hcapacity
  have hnone := admitted_key limiter a.key checks
  rw [TokenBuckets.grants_eq_nil clock limiter.toPolicy (not_le.mp hcapacity),
    List.map_eq_nil_iff, List.filter_eq_nil_iff] at hnone
  exact hnone a h (by simp)

/-- What a rejected check is told, when it is told a time. -/
theorem missing_of_error (h : (limiter.check now key).2 = .error (r : WithTop ℚ)) :
    ¬ 1 ≤ limiter.found now key ∧ 0 < limiter.refillRate ∧
      r = (1 - limiter.found now key) / limiter.refillRate := by
  by_cases hfound : 1 ≤ limiter.found now key
  · rw [check_of_found limiter now key hfound] at h
    cases h
  · rw [check_of_not_found limiter now key hfound, retryAfter] at h
    refine ⟨hfound, ?_⟩
    split at h
    · cases h
    · rename_i hrate
      refine ⟨lt_of_le_of_ne limiter.refillRate_nonneg (Ne.symm hrate), ?_⟩
      exact (WithTop.coe_injective (Except.error.inj h)).symm

/-- A rejected check leaves what it found. -/
theorem buckets_of_not_found (h : ¬ 1 ≤ limiter.found now key) :
    (limiter.check now key).1.buckets key
      = some { tokens := limiter.found now key, lastRefill := now } := by
  rw [check_buckets, Function.update_self, TokenBuckets.draw, if_neg h]

/-- **The wait holds good.**  After a rejected check, and any checks of which none of
the key is admitted, a check finds a token exactly if the wait is over. -/
theorem found_iff_waited (hcapacity : 1 ≤ limiter.maxTokens)
    (herror : (limiter.check now key).2 = .error (r : WithTop ℚ)) {between : List Check}
    (hsorted : (between.map Check.now).Pairwise (· ≤ ·)) (hnow : now ≤ now')
    (hfrom : ∀ a ∈ between, now ≤ a.now) (huntil : ∀ a ∈ between, a.now ≤ now')
    (hdenied : ∀ a ∈ admitted (limiter.check now key).1 between, a.key ≠ key) :
    1 ≤ (after (limiter.check now key).1 between).found now' key
      ↔ Duration.asSecs now + r ≤ Duration.asSecs now' := by
  obtain ⟨hmissing, hrate, hr⟩ := missing_of_error herror
  have hbucket := buckets_of_not_found hmissing
  have hnone : TokenBuckets.grants clock limiter.toPolicy
      (some { tokens := limiter.found now key, lastRefill := now })
      (readings key between) = [] := by
    have hgrants := admitted_key (limiter.check now key).1 key between
    have hempty : (admitted (limiter.check now key).1 between).filter
        (fun a => a.key = key) = [] :=
      List.filter_eq_nil_iff.mpr fun a ha => by simpa using hdenied a ha
    rw [hempty, check_toPolicy, hbucket] at hgrants
    exact hgrants.symm
  have hlast : ∀ b ∈ some
      ({ tokens := limiter.found now key, lastRefill := now } : TokenBucket),
      ∀ t ∈ readings key between, b.lastRefill ≤ t := by
    intro b hb t ht
    obtain rfl := Option.mem_some_iff.mp hb
    obtain ⟨a, ha, rfl⟩ := mem_of_mem_readings ht
    exact hfrom a ha
  have hwithin : ∀ t ∈ readings key between, clock.secs t ≤ clock.secs now' := by
    intro t ht
    obtain ⟨a, ha, rfl⟩ := mem_of_mem_readings ht
    exact clock.mono (huntil a ha)
  rw [found, after_toPolicy, after_buckets, check_toPolicy, hbucket,
    TokenBuckets.level_drawn_of_denied clock limiter.toPolicy
      (readings_sorted hsorted key) hlast hwithin hnone,
    TokenBuckets.one_le_level_iff clock limiter.toPolicy hcapacity hrate
      (clock.mono hnow), hr]
  exact Iff.rfl

end Rejected

/-! ## An admitted check -/

section Admitted

variable {limiter : RateLimiter} {now now' : Instant} {key : String} {n : UInt32}

/-- What an admitted check is told is left of what it found. -/
theorem remaining_le_of_ok (h : (limiter.check now key).2 = .ok n) :
    (n.toNat : ℚ) ≤ (TokenBuckets.draw clock limiter.toPolicy now
      (limiter.buckets key)).1.tokens := by
  by_cases hfound : 1 ≤ limiter.found now key
  · rw [check_of_found limiter now key hfound] at h
    obtain rfl := Except.ok.inj h
    rw [TokenBuckets.draw, if_pos hfound]
    exact asU32_le (sub_nonneg.mpr hfound)
  · rw [check_of_not_found limiter now key hfound] at h
    cases h

/-- **What remains can be spent.**  After an admitted check, and any checks of which
fewer of the key than remained, a check finds what remained less a token for each. -/
theorem le_found_of_remaining (hok : (limiter.check now key).2 = .ok n)
    {between : List Check}
    (hsorted : (between.map Check.now).Pairwise (· ≤ ·)) (hnow : now ≤ now')
    (hfrom : ∀ a ∈ between, now ≤ a.now) (huntil : ∀ a ∈ between, a.now ≤ now') :
    (n.toNat : ℚ) - (readings key between).length
      ≤ (after (limiter.check now key).1 between).found now' key := by
  have hleft := remaining_le_of_ok hok
  rw [← TokenBuckets.level_draw clock limiter.toPolicy] at hleft
  have hlater := TokenBuckets.level_sub_le_level_drawn clock limiter.toPolicy
    (b := some (TokenBuckets.draw clock limiter.toPolicy now (limiter.buckets key)).1)
    (s := clock.secs now) (t := clock.secs now') (readings_sorted hsorted key)
    (fun t ht => by
      obtain ⟨a, ha, rfl⟩ := mem_of_mem_readings ht
      exact clock.mono (hfrom a ha))
    (fun t ht => by
      obtain ⟨a, ha, rfl⟩ := mem_of_mem_readings ht
      exact clock.mono (huntil a ha))
    (clock.mono hnow)
  rw [found, after_toPolicy, after_buckets, check_toPolicy, check_buckets,
    Function.update_self]
  linarith

end Admitted

/-! ## Runs of the limiter of a config -/

section Runs

variable {prior between : List Check} {c c' : Check}

/-- The readings of a run, around those of two of its checks. -/
theorem readings_between
    (hsorted : ((prior ++ c :: between ++ [c']).map Check.now).Pairwise (· ≤ ·)) :
    (between.map Check.now).Pairwise (· ≤ ·) ∧ c.now ≤ c'.now ∧
      (∀ a ∈ between, c.now ≤ a.now) ∧ ∀ a ∈ between, a.now ≤ c'.now := by
  rw [List.append_assoc, List.map_append, List.pairwise_append] at hsorted
  obtain ⟨-, hsorted, -⟩ := hsorted
  rw [List.cons_append, List.map_cons, List.pairwise_cons, List.map_append,
    List.pairwise_append] at hsorted
  obtain ⟨hfrom, hmiddle, -, huntil⟩ := hsorted
  refine ⟨hmiddle, hfrom _ (by simp), fun a ha => hfrom _ ?_, fun a ha => ?_⟩
  · exact List.mem_append_left _ (List.mem_map_of_mem ha)
  · exact huntil _ (List.mem_map_of_mem ha) _ (by simp)

/-- **The wait a rejected client is told is exact.**  The next check of the key that
can be admitted is, exactly if the wait is over; so a client that waits the whole
seconds of the `retry-after` header is. -/
theorem isOk_iff_waited (requestsPerMinute burstSize : UInt32) {r : ℚ}
    (hsorted : ((prior ++ c :: between ++ [c']).map Check.now).Pairwise (· ≤ ·))
    (hadmitted : ∃ a ∈ admitted (new requestsPerMinute burstSize) prior, a.key = c.key)
    (herror : ((after (new requestsPerMinute burstSize) prior).check c.now c.key).2
      = .error (r : WithTop ℚ))
    (hkey : c'.key = c.key)
    (hbetween : ∀ a ∈ admitted (after (new requestsPerMinute burstSize) (prior ++ [c]))
      between, a.key ≠ c.key) :
    let limiter := after (new requestsPerMinute burstSize) (prior ++ c :: between)
    ((limiter.check c'.now c'.key).2.isOk = true
        ↔ Duration.asSecs c.now + r ≤ Duration.asSecs c'.now) ∧
      ∃ response, (RateLimit.rateLimit c.now
          (after (new requestsPerMinute burstSize) prior) (some ⟨c.key⟩)).2
            = .error response ∧
        response.headers.get "retry-after"
            = some (HeaderValue.ofText (toString ⌈r⌉)) ∧
        (Duration.asSecs c.now + ⌈r⌉ ≤ Duration.asSecs c'.now →
          (limiter.check c'.now c'.key).2.isOk = true) := by
  intro limiter
  obtain ⟨hmiddle, hnow, hfrom, huntil⟩ := readings_between hsorted
  obtain ⟨a, ha, -⟩ := hadmitted
  have hcapacity := one_le_maxTokens_of_admitted ha
  rw [← after_toPolicy (new requestsPerMinute burstSize) prior] at hcapacity
  rw [after_append] at hbetween
  have hafter : limiter = after ((after (new requestsPerMinute burstSize) prior).check
      c.now c.key).1 between := after_append _ prior (c :: between)
  have hexact : (limiter.check c'.now c'.key).2.isOk = true
      ↔ Duration.asSecs c.now + r ≤ Duration.asSecs c'.now := by
    rw [check_isOk_iff, hkey, hafter]
    exact found_iff_waited hcapacity herror hmiddle hnow hfrom huntil hbetween
  refine ⟨hexact, RateLimit.limited (r : WithTop ℚ), ?_, rfl, fun hwaited => ?_⟩
  · unfold RateLimit.rateLimit
    simp only [Option.map_some, Option.getD_some]
    split
    · rename_i hok
      rw [hok] at herror
      cases herror
    · rename_i retryAfter herr
      rw [herr] at herror
      rw [Except.error.inj herror]
  · exact hexact.mpr (le_trans (add_le_add_right (Int.le_ceil r) _) hwaited)

/-- A second after its only two tokens were spent, a key has one again, although it asked
for it too early. -/
theorem isOk_iff_waited_one_second :
    let limiter := after (new 60 2)
      ([⟨0, "a"⟩, ⟨0, "a"⟩] ++ ⟨0, "a"⟩ :: [⟨0, "b"⟩, ⟨500000000, "a"⟩])
    ((limiter.check (Duration.fromSecs 1) "a").2.isOk = true
        ↔ Duration.asSecs 0 + 1 ≤ Duration.asSecs (Duration.fromSecs 1)) ∧
      ∃ response, (RateLimit.rateLimit 0 (after (new 60 2) [⟨0, "a"⟩, ⟨0, "a"⟩])
          (some ⟨"a"⟩)).2 = .error response ∧
        response.headers.get "retry-after"
            = some (HeaderValue.ofText (toString ⌈(1 : ℚ)⌉)) ∧
        (Duration.asSecs 0 + ⌈(1 : ℚ)⌉ ≤ Duration.asSecs (Duration.fromSecs 1) →
          (limiter.check (Duration.fromSecs 1) "a").2.isOk = true) := by
  refine @isOk_iff_waited [⟨0, "a"⟩, ⟨0, "a"⟩] [⟨0, "b"⟩, ⟨500000000, "a"⟩] ⟨0, "a"⟩
    ⟨Duration.fromSecs 1, "a"⟩ 60 2 1 (by decide) ⟨⟨0, "a"⟩, ?_, rfl⟩ ?_ rfl ?_
  · decide +kernel
  · decide +kernel
  · decide +kernel

/-- **The quota a client is told can be spent.**  Each of the next `n` checks of a key
that was told that `n` remain is admitted, and the `i`-th of them is told that at least
`n - i` remain. -/
theorem remaining_admitted (requestsPerMinute burstSize : UInt32) {n : UInt32}
    (hsorted : ((prior ++ c :: between ++ [c']).map Check.now).Pairwise (· ≤ ·))
    (hok : ((after (new requestsPerMinute burstSize) prior).check c.now c.key).2 = .ok n)
    (hkey : c'.key = c.key)
    (hcount : (between.countP fun a => a.key = c.key) < n.toNat) :
    ∃ m, ((after (new requestsPerMinute burstSize) (prior ++ c :: between)).check
        c'.now c'.key).2 = .ok m ∧
      n.toNat - ((between.countP fun a => a.key = c.key) + 1) ≤ m.toNat := by
  obtain ⟨hmiddle, hnow, hfrom, huntil⟩ := readings_between hsorted
  have hfound := le_found_of_remaining hok hmiddle hnow hfrom huntil
  have hlength : (readings c.key between).length
      = between.countP fun a => a.key = c.key := by
    rw [readings, List.length_map, List.countP_eq_length_filter]
  rw [hlength] at hfound
  rw [after_append, hkey]
  -- what it finds is a token at least, and what is left of it is what it is told
  have hleft : ((n.toNat - ((between.countP fun a => a.key = c.key) + 1) : ℕ) : ℚ)
      ≤ (after ((after (new requestsPerMinute burstSize) prior).check c.now c.key).1
          between).found c'.now c.key - 1 := by
    rw [Nat.cast_sub hcount, Nat.cast_succ]
    linarith
  have htoken : 1 ≤ (after ((after (new requestsPerMinute burstSize) prior).check
      c.now c.key).1 between).found c'.now c.key :=
    sub_nonneg.mp (le_trans (Nat.cast_nonneg _) hleft)
  refine ⟨_, check_of_found _ c'.now c.key htoken, le_asU32 ?_ hleft⟩
  exact lt_of_le_of_lt (Nat.sub_le _ _) n.toNat_lt

/-- The first request of a key leaves it two more, and the second of these comes after
one of another key. -/
theorem remaining_admitted_two :
    ∃ m, ((after (new 60 3) ([] ++ ⟨0, "a"⟩ :: [⟨0, "a"⟩, ⟨0, "b"⟩])).check 0 "a").2
        = .ok m ∧
      (2 : UInt32).toNat - ((([⟨0, "a"⟩, ⟨0, "b"⟩] : List Check).countP
        fun a => a.key = "a") + 1) ≤ m.toNat :=
  @remaining_admitted [] [⟨0, "a"⟩, ⟨0, "b"⟩] ⟨0, "a"⟩ ⟨0, "a"⟩ 60 3 2 (by decide)
    (by decide +kernel) rfl (by decide)

end Runs

end RateLimiter

end XiaomiProxy
