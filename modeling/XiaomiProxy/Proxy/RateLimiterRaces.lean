import XiaomiProxy.Proxy.RateLimiter
import XiaomiProxy.Lib.Runs

/-!
# Concurrent checks

A check reads the clock first and locks its bucket afterwards, so among
concurrent checks the updates of a bucket may come in another order than their
readings.  `CheckRace` is the machine of these two steps: the limiter, the latest
clock reading, and the checks that have read the clock and not updated their
bucket yet.  Any number of checks can be under way, and any of them can update
next.

A ledger goes along with the machine and is read by nothing in it: when a bucket
was created, and how many tokens its refills have brought since.

* `CreditedOnce` — along a run, the `last_refill` of a bucket never moves
  backwards, and its ledger never exceeds the refill rate times the time since its
  creation.
  `creditedOnce_iff_pairwise` says that this is so exactly if the updates of the
  bucket come in the order of their readings.
-/

namespace XiaomiProxy

/-- The history of a bucket. -/
structure Ledger where
  created : Instant
  credited : ℚ
  deriving DecidableEq

structure CheckRace where
  limiter : RateLimiter
  clock : Instant
  pending : List RateLimiter.Check
  ledger : String → Option Ledger

/-- The two steps of a check. -/
inductive CheckStep where
  | read (c : RateLimiter.Check)
  | update (c : RateLimiter.Check)
  deriving DecidableEq, Repr

namespace CheckRace

/-- No check yet, at time `clock`. -/
def start (requestsPerMinute burstSize : UInt32) (clock : Instant) : CheckRace where
  limiter := RateLimiter.new requestsPerMinute burstSize
  clock
  pending := []
  ledger _ := none

/-- The tokens the refill of a check brings. -/
def credit (limiter : RateLimiter) (c : RateLimiter.Check) : ℚ :=
  match limiter.buckets c.key with
  | none => 0
  | some bucket =>
      min (bucket.tokens
          + Duration.asSecs (c.now - bucket.lastRefill) * limiter.refillRate)
        limiter.maxTokens - bucket.tokens

/-- The ledger of the bucket of a check, after it. -/
def record (s : CheckRace) (c : RateLimiter.Check) : Ledger :=
  match s.ledger c.key with
  | none => { created := c.now, credited := 0 }
  | some l => { l with credited := l.credited + credit s.limiter c }

/-- One step.  The clock never goes back, and a check updates its bucket after it
read the clock. -/
def step (s : CheckRace) : CheckStep → Option CheckRace
  | .read c =>
      if s.clock ≤ c.now then
        some { s with clock := c.now, pending := s.pending ++ [c] }
      else none
  | .update c =>
      if c ∈ s.pending then
        -- the update uses the reading of its own check, however old it is
        some { s with
          limiter := (s.limiter.check c.now c.key).1
          pending := s.pending.erase c
          ledger := Function.update s.ledger c.key (some (s.record c)) }
      else none

/-! ## Crediting no time twice -/

/-- A step that does not move the `last_refill` of the bucket backwards. -/
def Forward (key : String) (s : CheckRace) (op : CheckStep) : Prop :=
  ∀ s', step s op = some s' → ∀ b ∈ s.limiter.buckets key,
    ∀ b' ∈ s'.limiter.buckets key, b.lastRefill ≤ b'.lastRefill

/-- The bucket was credited at most the refill rate times the time since its
creation. -/
def Bounded (key : String) (s : CheckRace) : Prop :=
  ∀ l ∈ s.ledger key,
    l.credited ≤ s.limiter.refillRate * Duration.asSecs (s.clock - l.created)

/-- No stretch of time is credited twice to the bucket along the run. -/
def CreditedOnce (key : String) (s : CheckRace) (ops : List CheckStep) : Prop :=
  Runs.Along step (Forward key) s ops ∧ Runs.Always step (Bounded key) s ops

/-- The reading with which a step updates the bucket, if it does. -/
def updated (key : String) : CheckStep → Option Instant
  | .update c => if c.key = key then some c.now else none
  | .read _ => none

/-- The readings of the updates of the bucket, in the order of the updates. -/
def updates (key : String) (ops : List CheckStep) : List Instant :=
  ops.filterMap (updated key)

/-- The reading of the last update of the bucket. -/
def lastRefill (key : String) (s : CheckRace) : Option Instant :=
  (s.limiter.buckets key).map TokenBuckets.Bucket.lastRefill

/-! ## One step -/

/-- A state in which the ledger of the bucket is paid for. -/
structure Sound (key : String) (s : CheckRace) : Prop where
  pending : ∀ c ∈ s.pending, c.now ≤ s.clock
  ledger : s.ledger key = none ↔ s.limiter.buckets key = none
  bucket : ∀ b ∈ s.limiter.buckets key, ∀ l ∈ s.ledger key,
    l.created ≤ b.lastRefill ∧ b.lastRefill ≤ s.clock ∧
      l.credited ≤ s.limiter.refillRate
        * (RateLimiter.clock.secs b.lastRefill - RateLimiter.clock.secs l.created)

section Step

variable {key : String} {s s' : CheckRace} {op : CheckStep}

theorem sound_start (key : String) (requestsPerMinute burstSize : UInt32)
    (clock : Instant) : Sound key (start requestsPerMinute burstSize clock) where
  pending := nofun
  ledger := by simp [start, RateLimiter.new]
  bucket := nofun

/-- A step leaves the bucket alone, or it is an update of it. -/
theorem step_cases (key : String) (h : step s op = some s') :
    (updated key op = none ∧ s'.limiter.toPolicy = s.limiter.toPolicy ∧
        s'.limiter.buckets key = s.limiter.buckets key ∧ s'.ledger key = s.ledger key ∧
        s.clock ≤ s'.clock) ∨
      ∃ c ∈ s.pending, c.key = key ∧ op = .update c ∧
        s'.limiter = (s.limiter.check c.now key).1 ∧
        s'.ledger key = some (s.record c) ∧ s'.clock = s.clock := by
  cases op with
  | read c =>
      simp only [step, Option.ite_none_right_eq_some, Option.some.injEq] at h
      obtain ⟨hle, rfl⟩ := h
      exact Or.inl ⟨rfl, rfl, rfl, rfl, hle⟩
  | update c =>
      simp only [step, Option.ite_none_right_eq_some, Option.some.injEq] at h
      obtain ⟨hmem, rfl⟩ := h
      by_cases hkey : c.key = key
      · refine Or.inr ⟨c, hmem, hkey, rfl, by rw [hkey], ?_, rfl⟩
        rw [hkey]
        exact Function.update_self ..
      · have hne : key ≠ c.key := Ne.symm hkey
        refine Or.inl ⟨if_neg hkey, RateLimiter.check_toPolicy .., ?_, ?_,
          le_rfl⟩
        · rw [RateLimiter.check_buckets]
          exact Function.update_of_ne hne ..
        · exact Function.update_of_ne hne ..

/-- The pending checks of a state that was led to have read the clock. -/
theorem pending_step (hpending : ∀ c ∈ s.pending, c.now ≤ s.clock)
    (h : step s op = some s') : ∀ c ∈ s'.pending, c.now ≤ s'.clock := by
  cases op with
  | read d =>
      simp only [step, Option.ite_none_right_eq_some, Option.some.injEq] at h
      obtain ⟨hle, rfl⟩ := h
      intro c hc
      rcases List.mem_append.mp hc with hc | hc
      · exact (hpending c hc).trans hle
      · rw [List.mem_singleton.mp hc]
  | update d =>
      simp only [step, Option.ite_none_right_eq_some, Option.some.injEq] at h
      obtain ⟨-, rfl⟩ := h
      exact fun c hc => hpending c (List.mem_of_mem_erase hc)

/-- A refill brings at most the rate times the time since the last one. -/
theorem credit_le {limiter : RateLimiter} {c : RateLimiter.Check} {b : TokenBucket}
    (hbucket : limiter.buckets c.key = some b) (hle : b.lastRefill ≤ c.now) :
    credit limiter c ≤ limiter.refillRate
      * (RateLimiter.clock.secs c.now - RateLimiter.clock.secs b.lastRefill) := by
  have hmin := min_le_left (b.tokens
    + Duration.asSecs (c.now - b.lastRefill) * limiter.refillRate) limiter.maxTokens
  have hsecs := sub_nonneg.mpr (RateLimiter.clock.mono hle)
  rw [RateLimiter.asSecs_sub, max_eq_left hsecs] at hmin
  simp only [credit, hbucket, RateLimiter.asSecs_sub, max_eq_left hsecs]
  linarith

theorem Sound.bounded (h : Sound key s) : Bounded key s := by
  intro l hl
  cases hbucket : s.limiter.buckets key with
  | none =>
      rw [h.ledger.mpr hbucket] at hl
      cases hl
  | some b =>
      obtain ⟨hcreated, hclock, hcredited⟩ := h.bucket b hbucket l hl
      have hsecs := RateLimiter.clock.mono hclock
      refine hcredited.trans ?_
      rw [RateLimiter.asSecs_sub]
      refine mul_le_mul_of_nonneg_left ?_ s.limiter.refillRate_nonneg
      exact le_max_of_le_left (by linarith)

/-- The ledger after an update is paid for at the reading of the update. -/
theorem Sound.record {c : RateLimiter.Check} (h : Sound c.key s)
    (horder : ∀ r ∈ lastRefill c.key s, r ≤ c.now) :
    (s.record c).created ≤ c.now ∧
      (s.record c).credited ≤ s.limiter.refillRate
        * (RateLimiter.clock.secs c.now
          - RateLimiter.clock.secs (s.record c).created) := by
  cases hledger : s.ledger c.key with
  | none => simp [CheckRace.record, hledger]
  | some l =>
      cases hbucket : s.limiter.buckets c.key with
      | none =>
          rw [h.ledger.mpr hbucket] at hledger
          cases hledger
      | some b =>
          obtain ⟨hcreated, -, hcredited⟩ := h.bucket b hbucket l hledger
          have hle : b.lastRefill ≤ c.now := horder _ (by simp [lastRefill, hbucket])
          have hcredit := credit_le hbucket hle
          simp only [CheckRace.record, hledger]
          refine ⟨hcreated.trans hle, ?_⟩
          linarith

/-- **A step keeps the ledger paid for**, if it does not update the bucket with a
reading from before its last update. -/
theorem Sound.step (h : Sound key s) (hstep : step s op = some s')
    (horder : ∀ r ∈ lastRefill key s, ∀ r' ∈ updated key op, r ≤ r') :
    Sound key s' := by
  refine ⟨pending_step h.pending hstep, ?_, ?_⟩
  · rcases step_cases key hstep with ⟨-, -, hbucket, hledger, -⟩ |
      ⟨c, -, -, -, hlimiter, hledger, -⟩
    · rw [hbucket, hledger, h.ledger]
    · rw [hlimiter, hledger, RateLimiter.check_buckets, Function.update_self]
      simp
  · intro b' hb' l' hl'
    rcases step_cases key hstep with ⟨-, hpolicy, hbucket, hledger, hclock⟩ |
      ⟨c, hc, rfl, rfl, hlimiter, hledger, hclock⟩
    · rw [hbucket] at hb'
      rw [hledger] at hl'
      obtain ⟨hcreated, hle, hcredited⟩ := h.bucket b' hb' l' hl'
      rw [hpolicy]
      exact ⟨hcreated, hle.trans hclock, hcredited⟩
    · rw [hlimiter, RateLimiter.check_buckets, Function.update_self,
        Option.mem_some_iff] at hb'
      rw [hledger, Option.mem_some_iff] at hl'
      subst hb' hl'
      rw [TokenBuckets.draw_lastRefill, hclock, hlimiter, RateLimiter.check_toPolicy]
      have hpaid := h.record fun r hr => horder r hr c.now (by simp [updated])
      exact ⟨hpaid.1, h.pending c hc, hpaid.2⟩

/-- What a step makes of the last update of the bucket. -/
theorem lastRefill_step (key : String) (h : step s op = some s') :
    lastRefill key s' = (updated key op).or (lastRefill key s) := by
  rcases step_cases key h with ⟨hquiet, -, hbucket, -⟩ | ⟨c, -, rfl, rfl, hlimiter, -⟩
  · rw [hquiet, lastRefill, hbucket]
    rfl
  · rw [lastRefill, hlimiter, RateLimiter.check_buckets, Function.update_self,
      Option.map_some, TokenBuckets.draw_lastRefill, updated, if_pos rfl]
    rfl

/-- A step moves `last_refill` forward exactly if it does not update the bucket with
a reading from before its last update. -/
theorem forward_iff (key : String) (h : step s op = some s') :
    Forward key s op ↔ ∀ r ∈ lastRefill key s, ∀ r' ∈ updated key op, r ≤ r' := by
  have hnext : Forward key s op ↔
      ∀ r ∈ lastRefill key s, ∀ r' ∈ lastRefill key s', r ≤ r' := by
    constructor
    · intro hforward r hr r' hr'
      obtain ⟨b, hb, rfl⟩ := Option.map_eq_some_iff.mp hr
      obtain ⟨b', hb', rfl⟩ := Option.map_eq_some_iff.mp hr'
      exact hforward s' h b hb b' hb'
    · intro hle s'' hs'' b hb b' hb'
      obtain rfl := Option.some.inj (h.symm.trans hs'')
      exact hle _ (Option.mem_map_of_mem _ hb) _ (Option.mem_map_of_mem _ hb')
  rw [hnext, lastRefill_step key h]
  cases updated key op with
  | some r' => rfl
  | none =>
      refine iff_of_true (fun r hr r' hr' => ?_) nofun
      rw [Option.mem_def.mp hr, Option.none_or, Option.mem_some_iff] at hr'
      exact hr'.le

end Step

/-! ## The whole run -/

theorem pairwise_toList_append_cons {o : Option Instant} {r : Instant}
    {rs : List Instant} :
    (o.toList ++ r :: rs).Pairwise (· ≤ ·) ↔
      (∀ r' ∈ o, r' ≤ r) ∧ (r :: rs).Pairwise (· ≤ ·) := by
  cases o with
  | none => simp
  | some r' =>
      simp only [Option.toList_some, List.singleton_append, Option.mem_def,
        Option.some.injEq, forall_eq']
      rw [List.pairwise_cons]
      refine and_congr_left fun hpairwise => ⟨fun h => h r List.mem_cons_self, ?_⟩
      intro hle x hx
      rcases List.mem_cons.mp hx with rfl | hx
      · exact hle
      · exact hle.trans ((List.pairwise_cons.mp hpairwise).1 x hx)

/-- **From a sound state, a run credits no time twice exactly if the updates come in
the order of their readings**, the last one before the run included. -/
theorem creditedOnce_iff_pairwise {key : String} {s t : CheckRace}
    {ops : List CheckStep} (h : Sound key s) (hrun : Runs.run step s ops = some t) :
    CreditedOnce key s ops ↔
      ((lastRefill key s).toList ++ updates key ops).Pairwise (· ≤ ·) := by
  induction ops generalizing s with
  | nil =>
      refine iff_of_true ⟨trivial, h.bounded⟩ ?_
      cases lastRefill key s <;> simp [updates]
  | cons op ops ih =>
      obtain ⟨s', hstep, hrest⟩ := Runs.run_cons_eq_some.mp hrun
      have hsplit : CreditedOnce key s (op :: ops) ↔
          Forward key s op ∧ CreditedOnce key s' ops := by
        simp only [CreditedOnce, Runs.along_cons_of_some hstep, Runs.Always, h.bounded,
          hstep, Option.some.injEq, forall_eq', true_and, and_assoc]
      -- after a step forward the state is sound again, so the rest can be told
      -- from its readings
      have hih : Forward key s op → (CreditedOnce key s' ops ↔
          ((lastRefill key s').toList ++ updates key ops).Pairwise (· ≤ ·)) :=
        fun hforward => ih (h.step hstep ((forward_iff key hstep).mp hforward)) hrest
      rw [hsplit, and_congr_right hih, forward_iff key hstep, lastRefill_step key hstep]
      cases hupdated : updated key op with
      | none =>
          have hupdates : updates key (op :: ops) = updates key ops :=
            List.filterMap_cons_none hupdated
          simp [hupdates]
      | some r =>
          have hupdates : updates key (op :: ops) = r :: updates key ops :=
            List.filterMap_cons_some hupdated
          rw [hupdates, pairwise_toList_append_cons]
          simp

/-- **No stretch of time is credited twice** to the bucket of a key exactly if its
updates come in the order of their readings. -/
theorem creditedOnce_iff (key : String) (requestsPerMinute burstSize : UInt32)
    (clock : Instant) {ops : List CheckStep} {t : CheckRace}
    (hrun : Runs.run step (start requestsPerMinute burstSize clock) ops = some t) :
    CreditedOnce key (start requestsPerMinute burstSize clock) ops ↔
      (updates key ops).Pairwise (· ≤ ·) :=
  creditedOnce_iff_pairwise (sound_start key requestsPerMinute burstSize clock) hrun

/-- Two checks that update in the order of their readings. -/
theorem creditedOnce_in_order :
    CreditedOnce "tp" (start 60 1 0) [.read ⟨0, "tp"⟩, .read ⟨5, "tp"⟩,
      .update ⟨0, "tp"⟩, .update ⟨5, "tp"⟩] :=
  (creditedOnce_iff "tp" 60 1 0 rfl).mpr (by decide)

/-- A bucket of one token a second is drained at zero.  One more check reads the
clock then, and updates only after a check from a second later; a third check, also
from a second later, finds the second uncounted. -/
def lateUpdate : List CheckStep :=
  [.read ⟨0, "tp"⟩, .update ⟨0, "tp"⟩, .read ⟨0, "tp"⟩,
    .read ⟨Duration.fromSecs 1, "tp"⟩, .update ⟨Duration.fromSecs 1, "tp"⟩,
    .update ⟨0, "tp"⟩,
    .read ⟨Duration.fromSecs 1, "tp"⟩, .update ⟨Duration.fromSecs 1, "tp"⟩]

/-- The late update moves `last_refill` back, and the bucket is credited two tokens
for one second. -/
theorem lateUpdate_credits_twice :
    ¬ CreditedOnce "tp" (start 60 1 0) lateUpdate ∧
      (Runs.run step (start 60 1 0) lateUpdate).map (fun t => (t.clock, t.ledger "tp"))
        = some (Duration.fromSecs 1, some { created := 0, credited := 2 }) := by
  refine ⟨?_, by decide +kernel⟩
  obtain ⟨t, hrun⟩ : ∃ t, Runs.run step (start 60 1 0) lateUpdate = some t :=
    Option.isSome_iff_exists.mp (by decide +kernel)
  rw [creditedOnce_iff_pairwise (sound_start "tp" 60 1 0) hrun]
  decide

end CheckRace

end XiaomiProxy
