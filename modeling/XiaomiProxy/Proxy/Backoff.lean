import XiaomiProxy.Proxy.Retry

/-!
# Backoff arithmetic

`calculate_delay` doubles the base delay for every attempt and draws from a quarter of
it around.  It does so in `u64`, with three operations that can leave it: the power, the
product and the sum.  Only the difference below is a saturating one.

* `calculateDelay_eq_none_iff` — a sum that wraps leaves an empty range, on which the
  draw panics.
* `safeBackoff_iff` — what a config has to satisfy so that none of this happens at any
  attempt: the last attempt must fit.
-/

namespace XiaomiProxy

namespace Retry

/-- The base delay doubled for every attempt, taken as an integer. -/
def exponential (baseMs : UInt64) (attempt : UInt32) : ℕ :=
  baseMs.toNat * 2 ^ attempt.toNat

/-- No operation of `calculate_delay` leaves `u64`. -/
structure NoOverflow (baseMs : UInt64) (attempt : UInt32) : Prop where
  pow : 2 ^ attempt.toNat < 2 ^ 64
  product : exponential baseMs attempt < 2 ^ 64
  sum : (baseMs * pow2 attempt).toNat + (baseMs * pow2 attempt).toNat / 4 < 2 ^ 64

/-- Whatever is drawn, the delay is within a quarter of the exponential. -/
def WithinQuarter (baseMs : UInt64) (attempt : UInt32) : Prop :=
  ∀ rng, ∃ delay, calculateDelay rng baseMs attempt = some delay ∧
    exponential baseMs attempt - exponential baseMs attempt / 4 ≤ delay.toNat ∧
    delay.toNat ≤ exponential baseMs attempt + exponential baseMs attempt / 4

/-- The backoff of a config is safe: at every attempt it allows, and from each to the
next. -/
structure SafeBackoff (baseMs : UInt64) (maxRetries : UInt32) : Prop where
  noOverflow : ∀ attempt ≤ maxRetries, NoOverflow baseMs attempt
  withinQuarter : ∀ attempt ≤ maxRetries, WithinQuarter baseMs attempt
  monotone : ∀ attempt < maxRetries, ∀ rng rng' delay delay',
    calculateDelay rng baseMs attempt = some delay →
    calculateDelay rng' baseMs (attempt + 1) = some delay' → delay ≤ delay'

/-! ## The range of a draw -/

section Range

variable {baseMs : UInt64} {attempt : UInt32} {rng : GenRange}

/-- The ends of the range, as integers: the upper one wraps. -/
theorem calculateDelay_range (rng : GenRange) (baseMs : UInt64) (attempt : UInt32) :
    ∃ lo hi : UInt64,
      lo.toNat = (baseMs * pow2 attempt).toNat - (baseMs * pow2 attempt).toNat / 4 ∧
      hi.toNat = ((baseMs * pow2 attempt).toNat + (baseMs * pow2 attempt).toNat / 4)
        % 2 ^ 64 ∧
      calculateDelay rng baseMs attempt
        = if lo ≤ hi then some (rng.sample lo hi) else none := by
  have hjitter : (baseMs * pow2 attempt / 4).toNat
      = (baseMs * pow2 attempt).toNat / 4 := UInt64.toNat_div _ _
  have hle : baseMs * pow2 attempt / 4 ≤ baseMs * pow2 attempt := by
    rw [UInt64.le_iff_toNat_le, hjitter]
    exact Nat.div_le_self _ _
  refine ⟨baseMs * pow2 attempt - baseMs * pow2 attempt / 4,
    baseMs * pow2 attempt + baseMs * pow2 attempt / 4, ?_, ?_, ?_⟩
  · rw [UInt64.toNat_sub_of_le _ _ hle, hjitter]
  · rw [UInt64.toNat_add, hjitter]
  · unfold calculateDelay
    simp only [if_pos hle]

/-- **A sum that wraps is a panic, and nothing else is.** -/
theorem calculateDelay_eq_none_iff : calculateDelay rng baseMs attempt = none
    ↔ 2 ^ 64 ≤ (baseMs * pow2 attempt).toNat + (baseMs * pow2 attempt).toNat / 4 := by
  obtain ⟨lo, hi, hlo, hhi, hdelay⟩ := calculateDelay_range rng baseMs attempt
  have hbound := (baseMs * pow2 attempt).toNat_lt
  have hempty : (¬ lo ≤ hi) ↔
      2 ^ 64 ≤ (baseMs * pow2 attempt).toNat + (baseMs * pow2 attempt).toNat / 4 := by
    rw [UInt64.le_iff_toNat_le, hlo, hhi]
    omega
  rw [hdelay, ← hempty]
  by_cases h : lo ≤ hi <;> simp [h]

/-- The wrapped product is the product, where it fits. -/
theorem toNat_product (hpow : 2 ^ attempt.toNat < 2 ^ 64)
    (hproduct : exponential baseMs attempt < 2 ^ 64) :
    (baseMs * pow2 attempt).toNat = exponential baseMs attempt := by
  have hattempt : attempt.toNat < 64 := (Nat.pow_lt_pow_iff_right (by norm_num)).mp hpow
  rw [UInt64.toNat_mul, pow2, if_pos (UInt32.lt_iff_toNat_lt.mpr hattempt),
    UInt64.toNat_ofNat_of_lt' hpow]
  exact Nat.mod_eq_of_lt hproduct

/-- Where nothing overflows, the delay is drawn from a quarter around the exponential. -/
theorem NoOverflow.mem_of_delay (h : NoOverflow baseMs attempt) {delay : UInt64}
    (hdelay : calculateDelay rng baseMs attempt = some delay) :
    exponential baseMs attempt - exponential baseMs attempt / 4 ≤ delay.toNat ∧
      delay.toNat ≤ exponential baseMs attempt + exponential baseMs attempt / 4 := by
  obtain ⟨lo, hi, hlo, hhi, hrange⟩ := calculateDelay_range rng baseMs attempt
  have hsum := h.sum
  rw [toNat_product h.pow h.product] at hlo hhi hsum
  rw [Nat.mod_eq_of_lt hsum] at hhi
  rw [hrange] at hdelay
  split at hdelay
  · rename_i hle
    obtain rfl := Option.some.inj hdelay
    obtain ⟨hlower, hupper⟩ := rng.mem lo hi hle
    rw [← hlo, ← hhi]
    exact ⟨UInt64.le_iff_toNat_le.mp hlower, UInt64.le_iff_toNat_le.mp hupper⟩
  · cases hdelay

theorem NoOverflow.withinQuarter (h : NoOverflow baseMs attempt) :
    WithinQuarter baseMs attempt := by
  intro rng
  cases hdelay : calculateDelay rng baseMs attempt with
  | none => exact absurd (calculateDelay_eq_none_iff.mp hdelay) (not_le.mpr h.sum)
  | some delay => exact ⟨delay, rfl, h.mem_of_delay hdelay⟩

end Range

/-! ## All attempts of a config -/

section Attempts

variable {baseMs : UInt64} {attempt maxRetries : UInt32}

theorem exponential_mono (hle : attempt ≤ maxRetries) :
    exponential baseMs attempt ≤ exponential baseMs maxRetries :=
  Nat.mul_le_mul_left _
    (Nat.pow_le_pow_right (by norm_num) (UInt32.le_iff_toNat_le.mp hle))

/-- What fits at the last attempt fits at every one before. -/
theorem NoOverflow.of_le (hattempt : maxRetries.toNat ≤ 63)
    (hfits : exponential baseMs maxRetries + exponential baseMs maxRetries / 4 < 2 ^ 64)
    (hle : attempt ≤ maxRetries) : NoOverflow baseMs attempt := by
  have hlast := UInt32.le_iff_toNat_le.mp hle
  have hmono : exponential baseMs attempt ≤ exponential baseMs maxRetries :=
    exponential_mono hle
  have hpow : 2 ^ attempt.toNat < 2 ^ 64 :=
    Nat.pow_lt_pow_right (by norm_num) (by omega)
  have hproduct : exponential baseMs attempt < 2 ^ 64 := by omega
  refine ⟨hpow, hproduct, ?_⟩
  rw [toNat_product hpow hproduct]
  omega

theorem toNat_succ_of_lt (hlt : attempt < maxRetries) :
    (attempt + 1).toNat = attempt.toNat + 1 := by
  have hlast := UInt32.lt_iff_toNat_lt.mp hlt
  have hbound := maxRetries.toNat_lt
  rw [UInt32.toNat_add]
  show (attempt.toNat + 1) % 2 ^ 32 = attempt.toNat + 1
  exact Nat.mod_eq_of_lt (by omega)

/-- **Doubling outruns the jitter.**  A quarter above an exponential is at most a
quarter below its double. -/
theorem delay_le_delay_succ {rng rng' : GenRange} {delay delay' : UInt64}
    (hlt : attempt < maxRetries) (h : NoOverflow baseMs attempt)
    (h' : NoOverflow baseMs (attempt + 1))
    (hdelay : calculateDelay rng baseMs attempt = some delay)
    (hdelay' : calculateDelay rng' baseMs (attempt + 1) = some delay') :
    delay ≤ delay' := by
  have hdouble : exponential baseMs (attempt + 1) = 2 * exponential baseMs attempt := by
    rw [exponential, exponential, toNat_succ_of_lt hlt, pow_succ]
    ring
  obtain ⟨-, hupper⟩ := h.mem_of_delay hdelay
  obtain ⟨hlower, -⟩ := h'.mem_of_delay hdelay'
  rw [hdouble] at hlower
  rw [UInt64.le_iff_toNat_le]
  omega

end Attempts

/-- **The backoff of a config is safe exactly if its last attempt fits.** -/
theorem safeBackoff_iff (baseMs : UInt64) (maxRetries : UInt32) :
    SafeBackoff baseMs maxRetries ↔
      maxRetries.toNat ≤ 63 ∧
        baseMs.toNat * 2 ^ maxRetries.toNat + baseMs.toNat * 2 ^ maxRetries.toNat / 4
          < 2 ^ 64 := by
  constructor
  · intro h
    have hlast := h.noOverflow maxRetries (UInt32.le_refl _)
    have hsum := hlast.sum
    rw [toNat_product hlast.pow hlast.product] at hsum
    have hattempt := (Nat.pow_lt_pow_iff_right (by norm_num)).mp hlast.pow
    exact ⟨by omega, hsum⟩
  · rintro ⟨hattempt, hfits⟩
    have hsafe : ∀ attempt ≤ maxRetries, NoOverflow baseMs attempt :=
      fun attempt hle => NoOverflow.of_le hattempt hfits hle
    refine ⟨hsafe, fun attempt hle => (hsafe attempt hle).withinQuarter, ?_⟩
    intro attempt hlt rng rng' delay delay' hdelay hdelay'
    have hnext : attempt + 1 ≤ maxRetries := by
      rw [UInt32.le_iff_toNat_le, toNat_succ_of_lt hlt]
      exact UInt32.lt_iff_toNat_lt.mp hlt
    exact delay_le_delay_succ hlt (hsafe attempt (UInt32.le_of_lt hlt)) (hsafe _ hnext)
      hdelay hdelay'

/-- A base delay that is a TOML integer, with the default number of retries: the last of
them panics. -/
theorem not_safeBackoff_of_default_retries :
    (2017612633061982208 : UInt64).toNat < 2 ^ 63 ∧
      calculateDelay GenRange.lowest 2017612633061982208 3 = none ∧
      ¬ SafeBackoff 2017612633061982208 3 := by
  refine ⟨by decide, by decide, fun h => ?_⟩
  obtain ⟨delay, hdelay, -⟩ := h.withinQuarter 3 (by decide) GenRange.lowest
  have hpanic : calculateDelay GenRange.lowest 2017612633061982208 3 = none := by decide
  rw [hpanic] at hdelay
  cases hdelay

end Retry

end XiaomiProxy
