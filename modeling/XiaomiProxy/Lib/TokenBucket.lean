import Mathlib

/-!
# Token buckets

A token bucket holds at most `maxTokens` tokens and gains `refillRate` of them a
second.  A draw at time `now` refills the bucket for the time since the last
draw, and takes a token when there is a whole one.  A bucket that does not exist
yet counts as a full one.

* `Clock` — readings, and the seconds they stand for.
* `level` — what a bucket would hold after a refill.
* `draw`, `grants` — one draw, and the readings of the granted ones among many.
* `drawn` — the bucket after many draws.
* `grants_window_le` — in a window of `t - s` seconds, at most
  `maxTokens + refillRate * (t - s)` draws are granted.
* `level_drawn_of_denied`, `level_sub_le_level_drawn` — what draws leave for the next
  one: denied ones all of it, and any at least what was there less a token for each.

The window bound is a potential argument: what a bucket holds at the start of a
stretch of time, plus what it gains over the stretch, pays for the grants in it
(`grants_until_le`).

Small buckets are slower than their rate.  One that holds less than a token grants
nothing, and one that holds a single token is empty after every grant, so that the time
it takes to fill keeps its grants apart (`grants_spaced`, `countP_window_le_of_spaced`).
A larger one can be drawn at its full rate: everything it holds at once, and then each
token as soon as it is there (`grants_replicate`, `grants_onSchedule`).

A bucket may be forgotten when it is full, since a new one is (`draw_congr`,
`Full.mono`).  One that was not drawn from for as long as it takes to fill is
(`full_of_idle`), and one that was just emptied is the last to be (`drawn_replicate`).
-/

namespace TokenBuckets

universe u v

/-- Readings of type `T`, in order, and the seconds they stand for. -/
structure Clock (T : Type u) (K : Type v) [Preorder T] [Preorder K] where
  secs : T → K
  mono : Monotone secs

/-- The capacity of buckets and the rate at which they fill. -/
structure Policy (K : Type v) [Zero K] [LE K] where
  maxTokens : K
  refillRate : K
  maxTokens_nonneg : 0 ≤ maxTokens
  refillRate_nonneg : 0 ≤ refillRate

/-- What a bucket held after the last draw, and when that was. -/
structure Bucket (T : Type u) (K : Type v) where
  tokens : K
  lastRefill : T
  deriving DecidableEq, Repr

variable {T : Type u} {K : Type v} [LinearOrder T] [Field K] [LinearOrder K]

variable (c : Clock T K) (p : Policy K)

/-- What a bucket holds at the time `s`, in seconds. -/
def level (s : K) : Option (Bucket T K) → K
  | none => p.maxTokens
  | some b => min (b.tokens + max (s - c.secs b.lastRefill) 0 * p.refillRate) p.maxTokens

/-- A draw: the bucket after it, and whether it was granted. -/
def draw (now : T) (b : Option (Bucket T K)) : Bucket T K × Bool :=
  let tokens := level c p (c.secs now) b
  if 1 ≤ tokens then ({ tokens := tokens - 1, lastRefill := now }, true)
  else ({ tokens, lastRefill := now }, false)

/-- The bucket after draws. -/
def drawn : Option (Bucket T K) → List T → Option (Bucket T K)
  | b, [] => b
  | b, now :: rest => drawn (some (draw c p now b).1) rest

/-- The readings of the granted draws. -/
def grants : Option (Bucket T K) → List T → List T
  | _, [] => []
  | b, now :: rest =>
      let drawn := draw c p now b
      if drawn.2 then now :: grants (some drawn.1) rest else grants (some drawn.1) rest

/-- A bucket that was not overdrawn. -/
def NonNeg (b : Option (Bucket T K)) : Prop := ∀ b' ∈ b, 0 ≤ b'.tokens

section Draw

variable (now : T) (b : Option (Bucket T K))

theorem level_le (s : K) (b : Option (Bucket T K)) : level c p s b ≤ p.maxTokens := by
  cases b with
  | none => exact le_rfl
  | some b => exact min_le_right _ _

theorem draw_lastRefill : (draw c p now b).1.lastRefill = now := by
  rw [draw]
  split <;> rfl

/-- A draw takes the token it grants from what the bucket held. -/
theorem draw_tokens :
    (draw c p now b).1.tokens + (if (draw c p now b).2 then 1 else 0)
      = level c p (c.secs now) b := by
  rw [draw]
  split <;> simp

theorem grants_cons (rest : List T) :
    grants c p b (now :: rest)
      = (if (draw c p now b).2 then [now] else [])
        ++ grants c p (some (draw c p now b).1) rest := by
  rw [grants]
  split <;> rfl

theorem mem_of_mem_grants {times : List T} {r : T} (h : r ∈ grants c p b times) :
    r ∈ times := by
  induction times generalizing b with
  | nil => exact h
  | cons now rest ih =>
      rw [grants_cons] at h
      rcases List.mem_append.mp h with h | h
      · split at h
        · exact List.mem_cons.mpr (Or.inl (List.mem_singleton.mp h))
        · cases h
      · exact List.mem_cons_of_mem _ (ih _ h)

/-- A bucket that never holds a whole token grants nothing. -/
theorem grants_eq_nil (hcapacity : p.maxTokens < 1) (b : Option (Bucket T K))
    (times : List T) : grants c p b times = [] := by
  induction times generalizing b with
  | nil => rfl
  | cons now rest ih =>
      have hlow : ¬ 1 ≤ level c p (c.secs now) b :=
        not_le.mpr ((level_le c p (c.secs now) b).trans_lt hcapacity)
      have hdenied : (draw c p now b).2 = false := by
        rw [draw]
        simp [hlow]
      rw [grants_cons, hdenied, ih]
      rfl

end Draw

section Ordered

variable [IsStrictOrderedRing K] {b : Option (Bucket T K)} {s t : K}

theorem level_nonneg (h : NonNeg b) (s : K) : 0 ≤ level c p s b := by
  cases b with
  | none => exact p.maxTokens_nonneg
  | some b =>
      have htokens : 0 ≤ b.tokens := h b rfl
      have hgain := mul_nonneg (le_max_right (s - c.secs b.lastRefill) 0)
        p.refillRate_nonneg
      exact le_min (add_nonneg htokens hgain) p.maxTokens_nonneg

/-- Over a stretch of time, a bucket gains at most its rate. -/
theorem level_le_add (b : Option (Bucket T K)) (hst : s ≤ t) :
    level c p t b ≤ level c p s b + p.refillRate * (t - s) := by
  have hgain : 0 ≤ p.refillRate * (t - s) :=
    mul_nonneg p.refillRate_nonneg (sub_nonneg.mpr hst)
  cases b with
  | none => exact le_add_of_nonneg_right hgain
  | some b =>
      have hsince : max (t - c.secs b.lastRefill) 0
          ≤ max (s - c.secs b.lastRefill) 0 + (t - s) := by
        refine max_le ?_ (add_nonneg (le_max_right _ _) (sub_nonneg.mpr hst))
        linarith [le_max_left (s - c.secs b.lastRefill) 0]
      have htokens := mul_le_mul_of_nonneg_right hsince p.refillRate_nonneg
      rw [level, level, ← min_add_add_right]
      refine le_min ?_ ?_
      · exact (min_le_left _ _).trans (by linarith)
      · exact (min_le_right _ _).trans (le_add_of_nonneg_right hgain)

theorem draw_nonNeg (now : T) (h : NonNeg b) : NonNeg (some (draw c p now b).1) := by
  intro b' hb'
  obtain rfl := Option.mem_some_iff.mp hb'
  rw [draw]
  split
  · linarith
  · exact level_nonneg c p h _

/-- Right after a draw, a bucket holds what the draw left in it. -/
theorem level_draw (now : T) (b : Option (Bucket T K)) :
    level c p (c.secs now) (some (draw c p now b).1) = (draw c p now b).1.tokens := by
  have hle := level_le c p (c.secs now) b
  have htokens := draw_tokens c p now b
  rw [level, draw_lastRefill, sub_self, max_self, zero_mul, add_zero, min_eq_left]
  split at htokens <;> linarith

/-- **Grants are paid for.**  From a time on, the draws granted until `t` are paid
from what the bucket held at that time and what it gains until `t`. -/
theorem grants_until_le (hst : s ≤ t) (hb : NonNeg b) {times : List T}
    (hsorted : times.Pairwise (· ≤ ·)) (hfrom : ∀ r ∈ times, s ≤ c.secs r) :
    ((grants c p b times).countP fun r => c.secs r ≤ t : K)
      ≤ level c p s b + p.refillRate * (t - s) := by
  have hnonneg : 0 ≤ level c p s b + p.refillRate * (t - s) :=
    add_nonneg (level_nonneg c p hb s)
      (mul_nonneg p.refillRate_nonneg (sub_nonneg.mpr hst))
  induction times generalizing b s with
  | nil => simpa [grants] using hnonneg
  | cons now rest ih =>
      obtain ⟨hnow, hrest⟩ := List.pairwise_cons.mp hsorted
      by_cases hle : c.secs now ≤ t
      · have hsnow : s ≤ c.secs now := hfrom now List.mem_cons_self
        have hb' := draw_nonNeg c p now hb
        have hpaid := ih hle hb' hrest (fun r hr => c.mono (hnow r hr))
          (add_nonneg (level_nonneg c p hb' _)
            (mul_nonneg p.refillRate_nonneg (sub_nonneg.mpr hle)))
        have hgain := level_le_add c p b hsnow
        have htokens := draw_tokens c p now b
        have hcount : ((grants c p b (now :: rest)).countP fun r => c.secs r ≤ t : K)
            = (if (draw c p now b).2 then 1 else 0)
              + (grants c p (some (draw c p now b).1) rest).countP
                  fun r => c.secs r ≤ t := by
          rw [grants_cons, List.countP_append]
          split <;> simp [hle]
        -- what the bucket held and gained until `now` pays for this draw and for
        -- what the draw left, and that pays for the others
        rw [level_draw] at hpaid
        rw [hcount]
        linarith
      · -- no draw from `now` on is in time
        have hzero : ((grants c p b (now :: rest)).countP fun r => c.secs r ≤ t) = 0 := by
          rw [List.countP_eq_zero]
          intro r hr
          have hmem := mem_of_mem_grants c p b hr
          have hnowr : now ≤ r := by
            rcases List.mem_cons.mp hmem with rfl | hmem
            · exact le_rfl
            · exact hnow r hmem
          simpa using (not_le.mp hle).trans_le (c.mono hnowr)
        rw [hzero]
        simpa using hnonneg

/-- **The rate holds in every window.** -/
theorem grants_window_le (hst : s ≤ t) (hb : NonNeg b) {times : List T}
    (hsorted : times.Pairwise (· ≤ ·)) :
    ((grants c p b times).countP fun r => s ≤ c.secs r ∧ c.secs r ≤ t : K)
      ≤ p.maxTokens + p.refillRate * (t - s) := by
  induction times generalizing b with
  | nil =>
      simpa [grants] using add_nonneg p.maxTokens_nonneg
        (mul_nonneg p.refillRate_nonneg (sub_nonneg.mpr hst))
  | cons now rest ih =>
      obtain ⟨hnow, hrest⟩ := List.pairwise_cons.mp hsorted
      by_cases hle : s ≤ c.secs now
      · -- the window is open: everything that follows is paid for
        have hfrom : ∀ r ∈ now :: rest, s ≤ c.secs r := by
          intro r hr
          rcases List.mem_cons.mp hr with rfl | hr
          · exact hle
          · exact hle.trans (c.mono (hnow r hr))
        have hpaid := grants_until_le c p hst hb hsorted hfrom
        have hcongr : ((grants c p b (now :: rest)).countP
              fun r => s ≤ c.secs r ∧ c.secs r ≤ t)
            = (grants c p b (now :: rest)).countP fun r => c.secs r ≤ t := by
          refine List.countP_congr ?_
          intro r hr
          simp [hfrom r (mem_of_mem_grants c p b hr)]
        rw [hcongr]
        have hlevel := level_le c p s b
        linarith
      · -- the window is not open yet, and the draw does not count
        have hskip : ((grants c p b (now :: rest)).countP
              fun r => s ≤ c.secs r ∧ c.secs r ≤ t)
            = (grants c p (some (draw c p now b).1) rest).countP
                fun r => s ≤ c.secs r ∧ c.secs r ≤ t := by
          rw [grants_cons, List.countP_append]
          split <;> simp [hle]
        rw [hskip]
        exact ih (draw_nonNeg c p now hb) hrest

/-! ## What the next draw finds -/

theorem level_mono (b : Option (Bucket T K)) : Monotone fun s => level c p s b := by
  intro s t hst
  cases b with
  | none => exact le_rfl
  | some b =>
      have hsince := max_le_max_right 0 (sub_le_sub_right hst (c.secs b.lastRefill))
      have hgain := mul_le_mul_of_nonneg_right hsince p.refillRate_nonneg
      exact min_le_min_right _ (add_le_add_right hgain b.tokens)

/-- A refill changes nothing of what the bucket holds later: the capacity cuts off the
same. -/
theorem level_refilled {now : T} (hlast : ∀ b' ∈ b, b'.lastRefill ≤ now)
    (hnow : c.secs now ≤ t) :
    level c p t (some { tokens := level c p (c.secs now) b, lastRefill := now })
      = level c p t b := by
  have hgain : 0 ≤ (t - c.secs now) * p.refillRate :=
    mul_nonneg (sub_nonneg.mpr hnow) p.refillRate_nonneg
  have hcut : min (p.maxTokens + (t - c.secs now) * p.refillRate) p.maxTokens
      = p.maxTokens := min_eq_right (le_add_of_nonneg_right hgain)
  cases b with
  | none =>
      show min (p.maxTokens + max (t - c.secs now) 0 * p.refillRate) p.maxTokens
        = p.maxTokens
      rw [max_eq_left (sub_nonneg.mpr hnow), hcut]
  | some b =>
      have hle : c.secs b.lastRefill ≤ c.secs now := c.mono (hlast b rfl)
      simp only [level]
      rw [max_eq_left (sub_nonneg.mpr hnow), max_eq_left (sub_nonneg.mpr hle),
        max_eq_left (sub_nonneg.mpr (hle.trans hnow)), ← min_add_add_right, min_assoc, hcut]
      congr 1
      ring

/-- **Denied draws leave the wait as it is.**  After any number of them, the bucket
holds what it would hold without. -/
theorem level_drawn_of_denied {times : List T} (hsorted : times.Pairwise (· ≤ ·))
    (hlast : ∀ b' ∈ b, ∀ r ∈ times, b'.lastRefill ≤ r) (ht : ∀ r ∈ times, c.secs r ≤ t)
    (hdenied : grants c p b times = []) :
    level c p t (drawn c p b times) = level c p t b := by
  induction times generalizing b with
  | nil => rfl
  | cons now rest ih =>
      obtain ⟨hnow, hrest⟩ := List.pairwise_cons.mp hsorted
      rw [grants_cons, List.append_eq_nil_iff] at hdenied
      obtain ⟨hfirst, hothers⟩ := hdenied
      have hlow : ¬ 1 ≤ level c p (c.secs now) b := by
        intro hgranted
        rw [draw, if_pos hgranted] at hfirst
        cases hfirst
      have hdraw : (draw c p now b).1
          = { tokens := level c p (c.secs now) b, lastRefill := now } := by
        rw [draw, if_neg hlow]
      have hafter : ∀ b' ∈ some (draw c p now b).1, ∀ r ∈ rest, b'.lastRefill ≤ r := by
        intro b' hb' r hr
        obtain rfl := Option.mem_some_iff.mp hb'
        rw [draw_lastRefill]
        exact hnow r hr
      rw [drawn, ih hrest hafter (fun r hr => ht r (List.mem_cons_of_mem _ hr)) hothers,
        hdraw]
      exact level_refilled c p (fun b' hb' => hlast b' hb' now List.mem_cons_self)
        (ht now List.mem_cons_self)

/-- **A draw takes at most a token.**  After some draws, the bucket holds at least what
it held before them, less a token for each. -/
theorem level_sub_le_level_drawn {times : List T} (hsorted : times.Pairwise (· ≤ ·))
    (hs : ∀ r ∈ times, s ≤ c.secs r) (ht : ∀ r ∈ times, c.secs r ≤ t) (hst : s ≤ t) :
    level c p s b - times.length ≤ level c p t (drawn c p b times) := by
  induction times generalizing b s with
  | nil => simpa [drawn] using level_mono c p b hst
  | cons now rest ih =>
      obtain ⟨hnow, hrest⟩ := List.pairwise_cons.mp hsorted
      have hih := ih (b := some (draw c p now b).1) hrest (fun r hr => c.mono (hnow r hr))
        (fun r hr => ht r (List.mem_cons_of_mem _ hr)) (ht now List.mem_cons_self)
      have htokens := draw_tokens c p now b
      have hlevel : level c p s b ≤ level c p (c.secs now) b :=
        level_mono c p b (hs now List.mem_cons_self)
      rw [level_draw] at hih
      rw [drawn, List.length_cons, Nat.cast_succ]
      split at htokens <;> linarith

/-- A bucket that can hold a token holds one when what is missing has come in. -/
theorem one_le_level_iff {now : T} {x : K} (hcapacity : 1 ≤ p.maxTokens)
    (hrate : 0 < p.refillRate) (hnow : c.secs now ≤ t) :
    1 ≤ level c p t (some { tokens := x, lastRefill := now })
      ↔ c.secs now + (1 - x) / p.refillRate ≤ t := by
  rw [level, max_eq_left (sub_nonneg.mpr hnow), le_min_iff, and_iff_left hcapacity,
    ← sub_le_iff_le_add', ← div_le_iff₀ hrate, le_sub_iff_add_le']

/-! ## Small buckets -/

/-- What the bucket holds has come in since `g`. -/
structure EmptiedAt (g : T) (b : Bucket T K) : Prop where
  le : g ≤ b.lastRefill
  tokens : b.tokens = p.refillRate * (c.secs b.lastRefill - c.secs g)

variable {c p} {g now : T} {gap : K} {b : Bucket T K}

theorem EmptiedAt.level_eq (h : EmptiedAt c p g b) (hnow : b.lastRefill ≤ now) :
    level c p (c.secs now) (some b)
      = min (p.refillRate * (c.secs now - c.secs g)) p.maxTokens := by
  rw [level, h.tokens, max_eq_left (sub_nonneg.mpr (c.mono hnow))]
  congr 1
  ring

omit [IsStrictOrderedRing K] in
/-- A grant empties a bucket that holds one token. -/
theorem emptiedAt_draw_of_granted (hcapacity : p.maxTokens = 1) {b : Option (Bucket T K)}
    (hgranted : 1 ≤ level c p (c.secs now) b) : EmptiedAt c p now (draw c p now b).1 := by
  have hfull : level c p (c.secs now) b = 1 :=
    le_antisymm (hcapacity ▸ level_le c p (c.secs now) b) hgranted
  refine ⟨(draw_lastRefill c p now b).ge, ?_⟩
  rw [draw_lastRefill, draw, if_pos hgranted, hfull]
  ring

/-- A draw that is denied leaves in the bucket what came in. -/
theorem EmptiedAt.draw_of_denied (h : EmptiedAt c p g b) (hcapacity : p.maxTokens = 1)
    (hnow : b.lastRefill ≤ now) (hdenied : ¬ 1 ≤ level c p (c.secs now) (some b)) :
    EmptiedAt c p g (draw c p now (some b)).1 := by
  have hlevel := h.level_eq hnow
  refine ⟨h.le.trans (hnow.trans (draw_lastRefill c p now (some b)).ge), ?_⟩
  rw [draw_lastRefill, draw, if_neg hdenied, hlevel]
  rw [hlevel, hcapacity] at hdenied
  rw [hcapacity, min_eq_left]
  exact (not_le.mp fun hle => hdenied (le_min hle le_rfl)).le

/-- **Grants of a single token are spaced.**  The grants after one at `g` are at least
as far from it, and from each other, as the bucket takes to fill. -/
theorem grants_spaced (hcapacity : p.maxTokens = 1)
    (hgap : ∀ g now, 1 ≤ p.refillRate * (c.secs now - c.secs g) →
      c.secs g + gap ≤ c.secs now)
    (h : EmptiedAt c p g b) {times : List T} (hsorted : times.Pairwise (· ≤ ·))
    (hfrom : ∀ r ∈ times, b.lastRefill ≤ r) :
    (g :: grants c p (some b) times).Pairwise fun x y => c.secs x + gap ≤ c.secs y := by
  induction times generalizing g b with
  | nil => simp [grants]
  | cons now rest ih =>
      obtain ⟨hnow, hrest⟩ := List.pairwise_cons.mp hsorted
      have hle := hfrom now List.mem_cons_self
      have hnext : ∀ r ∈ rest, (draw c p now (some b)).1.lastRefill ≤ r := by
        intro r hr
        rw [draw_lastRefill]
        exact hnow r hr
      rw [grants]
      by_cases hgranted : 1 ≤ level c p (c.secs now) (some b)
      · have hspaced := ih (emptiedAt_draw_of_granted hcapacity hgranted) hrest hnext
        have hfilled : c.secs g + gap ≤ c.secs now := by
          rw [h.level_eq hle] at hgranted
          exact hgap g now (hgranted.trans (min_le_left _ _))
        have hdrawn : (draw c p now (some b)).2 = true := by
          rw [draw, if_pos hgranted]
        simp only [hdrawn, if_true]
        refine List.pairwise_cons.mpr ⟨fun r hr => ?_, hspaced⟩
        -- the next grant is a gap away, and the others come after it
        rcases List.mem_cons.mp hr with rfl | hr
        · exact hfilled
        · exact hfilled.trans (c.mono (hnow r (mem_of_mem_grants c p _ hr)))
      · have hdrawn : (draw c p now (some b)).2 = false := by
          rw [draw, if_neg hgranted]
        simp only [hdrawn, Bool.false_eq_true, if_false]
        exact ih (h.draw_of_denied hcapacity hle hgranted) hrest hnext

/-- The grants of a bucket that holds at most a single token are spaced. -/
theorem grants_spaced_of_any (hcapacity : p.maxTokens = 1)
    (hgap : ∀ g now, 1 ≤ p.refillRate * (c.secs now - c.secs g) →
      c.secs g + gap ≤ c.secs now)
    (b : Option (Bucket T K)) {times : List T} (hsorted : times.Pairwise (· ≤ ·)) :
    (grants c p b times).Pairwise fun x y => c.secs x + gap ≤ c.secs y := by
  induction times generalizing b with
  | nil => exact List.Pairwise.nil
  | cons now rest ih =>
      obtain ⟨hnow, hrest⟩ := List.pairwise_cons.mp hsorted
      rw [grants]
      by_cases hgranted : 1 ≤ level c p (c.secs now) b
      · -- from the first grant on, the bucket holds what came in since the last one
        have hdrawn : (draw c p now b).2 = true := by rw [draw, if_pos hgranted]
        simp only [hdrawn, if_true]
        refine grants_spaced hcapacity hgap (emptiedAt_draw_of_granted hcapacity hgranted)
          hrest fun r hr => ?_
        rw [draw_lastRefill]
        exact hnow r hr
      · have hdrawn : (draw c p now b).2 = false := by rw [draw, if_neg hgranted]
        simp only [hdrawn, Bool.false_eq_true, if_false]
        exact ih _ hrest

omit [LinearOrder T] in
/-- Few readings of a spaced list fall into a window. -/
theorem countP_window_le_of_spaced {secs : T → K} (hgap : 0 < gap) (hst : s ≤ t)
    {times : List T} (hspaced : times.Pairwise fun x y => secs x + gap ≤ secs y) :
    (times.countP fun r => s ≤ secs r ∧ secs r ≤ t : K) ≤ 1 + (t - s) / gap := by
  induction times generalizing s with
  | nil =>
      rw [List.countP_nil, Nat.cast_zero]
      exact add_nonneg zero_le_one (div_nonneg (sub_nonneg.mpr hst) hgap.le)
  | cons a rest ih =>
      obtain ⟨hafter, hrest⟩ := List.pairwise_cons.mp hspaced
      by_cases ha : s ≤ secs a ∧ secs a ≤ t
      · -- the others of the window come a gap after the first
        have hothers : (rest.countP fun r => s ≤ secs r ∧ secs r ≤ t : K)
            ≤ (t - secs a) / gap := by
          by_cases hroom : secs a + gap ≤ t
          · have hlater : (rest.countP fun r => s ≤ secs r ∧ secs r ≤ t)
                = rest.countP fun r => secs a + gap ≤ secs r ∧ secs r ≤ t := by
              refine List.countP_congr ?_
              intro r hr
              have hs : s ≤ secs r := ha.1.trans ((le_add_of_nonneg_right hgap.le).trans
                (hafter r hr))
              simp [hafter r hr, hs]
            have hih := ih hroom hrest
            have hsplit : 1 + (t - (secs a + gap)) / gap = (t - secs a) / gap := by
              field_simp
              ring
            rwa [hlater, ← hsplit]
          · have hnone : (rest.countP fun r => s ≤ secs r ∧ secs r ≤ t) = 0 := by
              rw [List.countP_eq_zero]
              intro r hr hin
              have hin : s ≤ secs r ∧ secs r ≤ t := by simpa using hin
              exact hroom ((hafter r hr).trans hin.2)
            rw [hnone, Nat.cast_zero]
            exact div_nonneg (sub_nonneg.mpr ha.2) hgap.le
        have hwindow : (t - secs a) / gap ≤ (t - s) / gap :=
          div_le_div_of_nonneg_right (sub_le_sub_left ha.1 t) hgap.le
        rw [List.countP_cons_of_pos (by simpa using ha), Nat.cast_add, Nat.cast_one, add_comm]
        exact add_le_add le_rfl (hothers.trans hwindow)
      · rw [List.countP_cons_of_neg (by simpa using ha)]
        exact ih hst hrest

/-! ## Full buckets -/

omit [IsStrictOrderedRing K] in
/-- Buckets that hold the same are drawn from in the same way. -/
theorem draw_congr {b b' : Option (Bucket T K)}
    (h : level c p (c.secs now) b = level c p (c.secs now) b') :
    draw c p now b = draw c p now b' := by
  rw [draw, draw, h]

omit [IsStrictOrderedRing K] in
/-- What was there at the last draw is there right after it. -/
theorem level_self {x : K} (hx : x ≤ p.maxTokens) (now : T) :
    level c p (c.secs now) (some { tokens := x, lastRefill := now }) = x := by
  simpa [level] using hx

omit [IsStrictOrderedRing K] in
/-- A bucket that does not exist yet is drawn from like a full one. -/
theorem draw_none (now : T) :
    draw c p now none = draw c p now (some { tokens := p.maxTokens, lastRefill := now }) :=
  draw_congr (level_self le_rfl now).symm

omit [IsStrictOrderedRing K] in
theorem grants_none_cons (now : T) (rest : List T) :
    grants c p none (now :: rest)
      = grants c p (some { tokens := p.maxTokens, lastRefill := now }) (now :: rest) := by
  rw [grants, grants, draw_none]

omit [IsStrictOrderedRing K] in
/-- A second draw at once takes the next token. -/
theorem draw_self {x : K} (hone : 1 ≤ x) (hx : x ≤ p.maxTokens) (now : T) :
    draw c p now (some { tokens := x, lastRefill := now })
      = ({ tokens := x - 1, lastRefill := now }, true) := by
  rw [draw, level_self hx]
  exact if_pos hone

/-- A bucket of a single token grants a second draw once it has filled. -/
theorem grants_pair (hcapacity : p.maxTokens = 1) (hle : g ≤ now)
    (hfull : 1 ≤ p.refillRate * (c.secs now - c.secs g)) :
    grants c p none [g, now] = [g, now] := by
  have hfirst : 1 ≤ level c p (c.secs g) none := hcapacity.ge
  have hemptied := emptiedAt_draw_of_granted hcapacity hfirst
  have hlevel := hemptied.level_eq ((draw_lastRefill c p g none).trans_le hle)
  have hsecond : 1 ≤ level c p (c.secs now) (some (draw c p g none).1) := by
    rw [hlevel, hcapacity]
    exact le_min hfull le_rfl
  have hdraw : (draw c p g none).2 = true := by rw [draw, if_pos hfirst]
  have hdraw' : (draw c p now (some (draw c p g none).1)).2 = true := by
    rw [draw, if_pos hsecond]
  rw [grants_cons, hdraw, grants_cons, hdraw']
  rfl

/-- What a bucket holds can be drawn at once. -/
theorem grants_replicate {n : ℕ} {x : K} (hn : (n : K) ≤ x) (hx : x ≤ p.maxTokens)
    (now : T) (rest : List T) :
    grants c p (some { tokens := x, lastRefill := now }) (List.replicate n now ++ rest)
      = List.replicate n now
        ++ grants c p (some { tokens := x - n, lastRefill := now }) rest := by
  induction n generalizing x with
  | zero => simp
  | succ n ih =>
      rw [Nat.cast_succ] at hn
      have hone : 1 ≤ x := le_trans (by simp) hn
      have hrest := ih (x := x - 1) (by linarith) (by linarith)
      have htokens : x - 1 - n = x - (n + 1 : ℕ) := by
        push_cast
        ring
      rw [List.replicate_succ, List.cons_append, List.cons_append, grants, draw_self hone hx]
      simp only [if_true]
      rw [hrest, htokens]

/-- **A bucket of two tokens or more can be drawn at its full rate.**  Of readings that
come as soon as a first, a second and so on token has come in since `due 0`, all are
granted: the fraction of a token that is left never meets the capacity. -/
theorem grants_onSchedule {due : ℕ → T} (hcapacity : 2 ≤ p.maxTokens) (hmono : Monotone due)
    (hdue : ∀ k : ℕ, (k : K) ≤ p.refillRate * (c.secs (due k) - c.secs (due 0)) ∧
      p.refillRate * (c.secs (due k) - c.secs (due 0)) < k + 1) (n k : ℕ) :
    grants c p (some {
        tokens := p.refillRate * (c.secs (due k) - c.secs (due 0)) - k
        lastRefill := due k }) ((List.range' (k + 1) n).map due)
      = (List.range' (k + 1) n).map due := by
  induction n generalizing k with
  | zero => rfl
  | succ n ih =>
      obtain ⟨hlo, hhi⟩ := hdue (k + 1)
      rw [Nat.cast_succ] at hlo hhi
      have hstep : c.secs (due k) ≤ c.secs (due (k + 1)) := c.mono (hmono (Nat.le_succ k))
      have hlevel : level c p (c.secs (due (k + 1))) (some {
            tokens := p.refillRate * (c.secs (due k) - c.secs (due 0)) - k
            lastRefill := due k })
          = p.refillRate * (c.secs (due (k + 1)) - c.secs (due 0)) - k := by
        rw [level, max_eq_left (sub_nonneg.mpr hstep), min_eq_left]
        · ring
        · linarith
      have hdraw : draw c p (due (k + 1)) (some {
            tokens := p.refillRate * (c.secs (due k) - c.secs (due 0)) - k
            lastRefill := due k })
          = ({ tokens := p.refillRate * (c.secs (due (k + 1)) - c.secs (due 0)) - (k + 1 : ℕ)
               lastRefill := due (k + 1) }, true) := by
        rw [draw, hlevel]
        refine (if_pos (by linarith)).trans ?_
        push_cast
        rw [sub_sub]
      rw [List.range'_succ, List.map_cons, grants, hdraw]
      simp only [if_true]
      rw [ih]

/-! ## Forgotten buckets -/

variable (c p) in
/-- A bucket that holds as much as a new one. -/
def Full (s : K) (b : Option (Bucket T K)) : Prop := level c p s b = p.maxTokens

omit [IsStrictOrderedRing K] in
theorem full_none (s : K) : Full c p s (none : Option (Bucket T K)) := rfl

theorem Full.mono {b : Option (Bucket T K)} (h : Full c p s b) (hst : s ≤ t) :
    Full c p t b :=
  le_antisymm (level_le c p t b) (h.ge.trans (level_mono c p b hst))

/-- A bucket that was left alone for as long as it takes to fill is full. -/
theorem full_of_idle {d : K} (htokens : 0 ≤ b.tokens) (hfill : p.maxTokens ≤ p.refillRate * d)
    (hidle : c.secs b.lastRefill + d ≤ s) : Full c p s (some b) := by
  have hsince : d ≤ max (s - c.secs b.lastRefill) 0 :=
    (le_sub_iff_add_le'.mpr hidle).trans (le_max_left _ _)
  have hgain := mul_le_mul_of_nonneg_right hsince p.refillRate_nonneg
  exact min_eq_right (by linarith)

/-- Some of what a bucket holds, drawn at once. -/
theorem drawn_replicate {n : ℕ} {x : K} (hn : (n : K) ≤ x) (hx : x ≤ p.maxTokens) :
    drawn c p (some { tokens := x, lastRefill := now }) (List.replicate n now)
      = some { tokens := x - n, lastRefill := now } := by
  induction n generalizing x with
  | zero => simp [drawn]
  | succ n ih =>
      rw [Nat.cast_succ] at hn
      have hone : 1 ≤ x := le_trans (by simp) hn
      rw [List.replicate_succ, drawn, draw_self hone hx, ih (by linarith) (by linarith),
        Nat.cast_succ, sub_sub, add_comm (1 : K)]

/-- The same of a bucket that does not exist yet. -/
theorem drawn_replicate_none {n : ℕ} (hn : ((n + 1 : ℕ) : K) ≤ p.maxTokens) :
    drawn c p none (List.replicate (n + 1) now)
      = some { tokens := p.maxTokens - (n + 1 : ℕ), lastRefill := now } := by
  rw [← drawn_replicate (c := c) hn le_rfl, List.replicate_succ, drawn, drawn, draw_none]

end Ordered

end TokenBuckets
