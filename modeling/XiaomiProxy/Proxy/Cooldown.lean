import XiaomiProxy.Proxy.PoolRuns

/-!
# The cooldown of a tripped key

Timed runs of pool operations: the clock never goes back, and a recovery task
fires exactly when its sleep ends, 60 seconds after the failure that spawned it.
Reports may be about any key at any time, so requests may be in flight as long
as they like.

`report_failure` spawns a task each time it counts a failure at or above the
threshold, and nothing cancels a task.  A task spawned by a late failure in one
outage therefore fires during a later one and cuts its cooldown short
(`lateReport_cuts_cooldown`).  A trip at which no older task of the entry is
pending does keep the entry out for the full cooldown
(`cooldown_of_no_older_task`).
-/

namespace XiaomiProxy

/-- A pool and the time on the clock. -/
structure TimedPool where
  now : Instant
  pool : KeyPool
  deriving DecidableEq

namespace TimedPool

open KeyPool (cooldown DistinctKeys)

/-- A recovery task fires when its sleep ends, neither before nor after. -/
def OnTime : Instant × PoolOp → Bool
  | (t, .recover task) => task.due = t
  | _ => true

/-- One operation at a time `t` that is not in the past, with no sleep ended
before `t` and still pending. -/
def step (s : TimedPool) (op : Instant × PoolOp) : Option TimedPool :=
  if s.now ≤ op.1 ∧ (∀ task ∈ s.pool.tasks, op.1 ≤ task.due) ∧ OnTime op then
    (s.pool.step op).map fun p => { now := op.1, pool := p }
  else none

theorem step_eq_some {s s' : TimedPool} {op : Instant × PoolOp} :
    s.step op = some s' ↔
      (s.now ≤ op.1 ∧ (∀ task ∈ s.pool.tasks, op.1 ≤ task.due) ∧ OnTime op = true) ∧
        s.pool.step op = some s'.pool ∧ s'.now = op.1 := by
  unfold step
  split
  · rename_i hguard
    rw [Option.map_eq_some_iff]
    constructor
    · rintro ⟨p, hp, rfl⟩
      exact ⟨hguard, hp, rfl⟩
    · rintro ⟨-, hp, hnow⟩
      exact ⟨s'.pool, hp, by rw [← hnow]⟩
  · rename_i hguard
    simp [hguard]

/-- Whether the entry a key names is healthy. -/
def healthOf (p : KeyPool) (key : String) : Option Bool :=
  (p.entryOf? key).map fun k => k.val.healthy

/-- The failure reported at time `t` changes the key from healthy to
unhealthy. -/
def Trips (p : KeyPool) (t : Instant) (acquired : AcquiredKey) : Prop :=
  healthOf p acquired.key = some true ∧
    healthOf (p.reportFailure t acquired).1 acquired.key = some false

instance decidableTrips (p : KeyPool) (t : Instant) (acquired : AcquiredKey) :
    Decidable (Trips p t acquired) := inferInstanceAs (Decidable (_ ∧ _))

/-- The operation removes the key or passes it to `add_key`. -/
def Readmits (key : String) : PoolOp → Bool
  | .addKey other _ => other = key
  | .removeKey other => other = key
  | _ => false

/-- Whenever a failure reported at time `t` in the run trips a key that is not
readmitted afterwards, no acquisition before `t + 60 s` returns the key. -/
def CooldownKept (s : TimedPool) (ops : List (Instant × PoolOp)) : Prop :=
  ∀ before t acquired during t' after s₁ s₂ s₃,
    ops = before ++ (t, .reportFailure acquired)
      :: (during ++ (t', .acquireKey) :: after) →
    Runs.run step s before = some s₁ →
    Trips s₁.pool t acquired →
    s₁.step (t, .reportFailure acquired) = some s₂ →
    Runs.run step s₂ during = some s₃ →
    (∀ op ∈ during, Readmits acquired.key op.2 = false) →
    t' < t + cooldown →
    s₃.pool.acquireKey.2 ≠ .ok acquired

/-- If the step trips a key, no task spawned by an earlier failure will fire on
its entry before the cooldown is over. -/
def NoOlderTask (s : TimedPool) : Instant × PoolOp → Prop
  | (t, .reportFailure acquired) =>
      Trips s.pool t acquired →
        ∀ k ∈ s.pool.entryOf? acquired.key, ∀ task ∈ s.pool.tasks,
          task.ptr = k.ptr → t + cooldown ≤ task.due
  | _ => True

instance decidableNoOlderTask (s : TimedPool) : DecidablePred s.NoOlderTask
  | (t, .reportFailure acquired) =>
      inferInstanceAs (Decidable (Trips s.pool t acquired → _))
  | (_, .acquireKey) | (_, .reportSuccess _) | (_, .recover _) | (_, .addKey _ _)
  | (_, .removeKey _) => isTrue trivial

/-! ## An entry that cools down -/

/-- The entry at `ptr` holds the key, is unhealthy, and will not be revived before
the deadline. -/
structure Out (deadline : Instant) (ptr : ℕ) (key : String) (p : KeyPool) : Prop where
  entry : ∃ k ∈ p.keys.cells, k.ptr = ptr ∧ k.val.key = key ∧ k.val.healthy = false
  later : ∀ task ∈ p.tasks, task.ptr = ptr → deadline ≤ task.due

section Out

variable {deadline : Instant} {ptr : ℕ} {key : String} {p : KeyPool}

/-- A store that keeps keys and does not revive leaves the entry out. -/
theorem Out.modify (h : Out deadline ptr key p) (target : ℕ)
    {f : PooledKey → PooledKey} (hkey : ∀ e, (f e).key = e.key)
    (hhealthy : ∀ e, e.healthy = false → (f e).healthy = false) (state : PoolState)
    {tasks : List RecoveryTask}
    (htasks : ∀ task ∈ tasks, task.ptr = ptr → deadline ≤ task.due) :
    Out deadline ptr key { keys := p.keys.modify target f, state, tasks } := by
  obtain ⟨k, hk, hptr, hkk, hhk⟩ := h.entry
  refine ⟨⟨k.update target f, SharedVec.mem_modify.mpr ⟨k, hk, rfl⟩, ?_, ?_, ?_⟩, htasks⟩
  · rw [Cell.update_ptr, hptr]
  · rw [Cell.update_attr hkey, hkk]
  · rw [Cell.update_val]
    split
    · exact hhealthy k.val hhk
    · exact hhk

/-- A store through another pointer leaves the entry out. -/
theorem Out.modify_of_ne (h : Out deadline ptr key p) {target : ℕ} (hne : ptr ≠ target)
    (f : PooledKey → PooledKey) (state : PoolState) {tasks : List RecoveryTask}
    (htasks : ∀ task ∈ tasks, task.ptr = ptr → deadline ≤ task.due) :
    Out deadline ptr key { keys := p.keys.modify target f, state, tasks } := by
  obtain ⟨k, hk, rfl, hkk, hhk⟩ := h.entry
  exact ⟨⟨k, SharedVec.mem_modify.mpr ⟨k, hk, Cell.update_of_ne f hne⟩, rfl, hkk, hhk⟩,
    htasks⟩

theorem Out.acquireKey (h : Out deadline ptr key p) :
    Out deadline ptr key p.acquireKey.1 := by
  rcases p.acquireKey_cases with ⟨e, -, heq⟩ | ⟨k, index, -, -, -, heq⟩
  · rw [heq]
    exact h
  · rw [heq]
    exact h.modify (f := PooledKey.countRequest) k.ptr (fun _ => rfl) (fun _ h => h) _
      h.later

theorem Out.reportSuccess (h : Out deadline ptr key p) (acquired : AcquiredKey) :
    Out deadline ptr key (p.reportSuccess acquired) := by
  cases hentry : p.entryOf? acquired.key with
  | none =>
      rw [KeyPool.reportSuccess_of_none hentry]
      exact h
  | some k =>
      rw [KeyPool.reportSuccess_of_some hentry]
      exact h.modify (f := PooledKey.clearErrors) k.ptr (fun _ => rfl) (fun _ h => h) _
        h.later

/-- A failure counts, and a task it spawns ends its sleep after the deadline. -/
theorem Out.reportFailure (h : Out deadline ptr key p) {now : Instant}
    (hnow : deadline ≤ now + cooldown) (acquired : AcquiredKey) :
    Out deadline ptr key (p.reportFailure now acquired).1 := by
  cases hentry : p.entryOf? acquired.key with
  | none =>
      rw [KeyPool.reportFailure_of_none hentry]
      exact h
  | some k =>
      by_cases hle : 3 ≤ k.val.consecutiveErrors + 1
      · rw [KeyPool.reportFailure_of_le hentry hle]
        refine h.modify (f := PooledKey.trip ∘ PooledKey.countError) k.ptr
          (fun _ => rfl) (fun _ _ => rfl) _ fun task htask hptr => ?_
        rcases List.mem_append.mp htask with hold | hnew
        · exact h.later task hold hptr
        · obtain ⟨-, -, rfl⟩ := List.mem_map.mp hnew
          exact hnow
      · rw [KeyPool.reportFailure_of_lt hentry hle]
        exact h.modify (f := PooledKey.countError) k.ptr (fun _ => rfl) (fun _ h => h) _
          h.later

/-- A task that fires before the deadline does not hold the entry. -/
theorem Out.recover (h : Out deadline ptr key p) {task : RecoveryTask}
    (hpending : task ∈ p.tasks) (hdue : task.due < deadline) :
    Out deadline ptr key (p.recover task) := by
  have hne : ptr ≠ task.ptr := by
    intro heq
    exact absurd hdue (not_lt.mpr (h.later task hpending heq.symm))
  exact h.modify_of_ne hne PooledKey.revive _ fun other hother =>
    h.later other (List.mem_of_mem_erase hother)

theorem Out.addKey (h : Out deadline ptr key p) {other : String} (hne : other ≠ key)
    (weight : UInt32) : Out deadline ptr key (p.addKey other weight) := by
  cases hentry : p.entryOf? other with
  | none =>
      rw [KeyPool.addKey_of_none hentry]
      obtain ⟨k, hk, hrest⟩ := h.entry
      exact ⟨⟨k, List.mem_append_left _ hk, hrest⟩, h.later⟩
  | some existing =>
      rw [KeyPool.addKey_of_some hentry]
      refine h.modify_of_ne ?_ _ _ h.later
      rintro rfl
      obtain ⟨k, hk, hptr, hkk, -⟩ := h.entry
      have hsame := p.keys.eq_of_ptr_eq hk (KeyPool.entryOf?_mem hentry) hptr
      rw [hsame, KeyPool.entryOf?_key hentry] at hkk
      exact hne hkk

theorem Out.removeKey (h : Out deadline ptr key p) {other : String}
    (hne : other ≠ key) : Out deadline ptr key (p.removeKey other) := by
  obtain ⟨k, hk, hptr, hkk, hhk⟩ := h.entry
  have hkept : k.val.key ≠ other := by
    rw [hkk]
    exact hne.symm
  exact ⟨⟨k, List.mem_filter.mpr ⟨hk, by simpa using hkept⟩, hptr, hkk, hhk⟩, h.later⟩

/-- An entry that is out is not acquired. -/
theorem Out.acquireKey_ne (h : Out deadline ptr key p) (hdistinct : p.DistinctKeys) :
    p.acquireKey.2 ≠ .ok { key } := by
  rcases p.acquireKey_cases with ⟨e, -, heq⟩ | ⟨k, index, -, hk, hhealthy, heq⟩
  · rw [heq]
    exact fun hok => by cases hok
  · rw [heq]
    intro hok
    obtain ⟨l, hl, -, hkey, hunhealthy⟩ := h.entry
    have hkk : k.val.key = key := congrArg AcquiredKey.key (Except.ok.inj hok)
    have hsame := hdistinct.eq_of_key_eq hk hl (by rw [hkk, hkey])
    rw [hsame, hunhealthy] at hhealthy
    cases hhealthy

end Out

/-- At a time not before `t`, the entry is out until `t + 60 s`. -/
structure Cooling (t : Instant) (ptr : ℕ) (key : String) (s : TimedPool) : Prop where
  now_le : t ≤ s.now
  distinct : s.pool.DistinctKeys
  out : Out (t + cooldown) ptr key s.pool

section Cooling

variable {t : Instant} {ptr : ℕ} {key : String} {s s' : TimedPool}

/-- **One step.**  Before the cooldown is over, an operation that does not readmit
the key leaves its entry cooling down. -/
theorem Cooling.step (h : Cooling t ptr key s) {op : Instant × PoolOp}
    (hbefore : op.1 < t + cooldown) (hop : Readmits key op.2 = false)
    (hstep : s.step op = some s') : Cooling t ptr key s' := by
  obtain ⟨⟨hnow, -, hontime⟩, hpool, hnow'⟩ := step_eq_some.mp hstep
  have hle : t ≤ op.1 := h.now_le.trans hnow
  refine ⟨hle.trans hnow'.symm.le, h.distinct.step hpool, ?_⟩
  obtain ⟨now, op⟩ := op
  cases op with
  | acquireKey =>
      rw [← Option.some.inj hpool]
      exact h.out.acquireKey
  | reportSuccess acquired =>
      rw [← Option.some.inj hpool]
      exact h.out.reportSuccess acquired
  | reportFailure acquired =>
      rw [← Option.some.inj hpool]
      exact h.out.reportFailure (Nat.add_le_add_right hle cooldown) acquired
  | recover task =>
      obtain ⟨hpending, heq⟩ := KeyPool.step_recover.mp hpool
      have hdue : task.due = now := by simpa [OnTime] using hontime
      rw [← heq]
      exact h.out.recover hpending (by rw [hdue]; exact hbefore)
  | addKey other weight =>
      rw [← Option.some.inj hpool]
      exact h.out.addKey (by simpa [Readmits] using hop) weight
  | removeKey other =>
      rw [← Option.some.inj hpool]
      exact h.out.removeKey (by simpa [Readmits] using hop)

/-- The clock does not go back. -/
theorem now_le_of_run {ops : List (Instant × PoolOp)}
    (hrun : Runs.run TimedPool.step s ops = some s') : s.now ≤ s'.now :=
  Runs.run_invariant (I := fun m : TimedPool => s.now ≤ m.now)
    (fun _ _ _ hle hstep => by
      obtain ⟨⟨hnow, -, -⟩, -, hnow'⟩ := step_eq_some.mp hstep
      rw [hnow']
      exact hle.trans hnow)
    le_rfl hrun

/-- **A stretch of the run.**  As long as the time on the clock is before
`t + 60 s`, the entry goes on cooling down. -/
theorem Cooling.run (h : Cooling t ptr key s) {during : List (Instant × PoolOp)}
    (hbefore : s'.now < t + cooldown)
    (hops : ∀ op ∈ during, Readmits key op.2 = false)
    (hrun : Runs.run TimedPool.step s during = some s') : Cooling t ptr key s' := by
  induction during generalizing s with
  | nil =>
      cases hrun
      exact h
  | cons op during ih =>
      obtain ⟨m, hm, hrest⟩ := Runs.run_cons_eq_some.mp hrun
      obtain ⟨-, -, hnow⟩ := step_eq_some.mp hm
      have hearly : op.1 < t + cooldown := by
        rw [← hnow]
        exact (now_le_of_run hrest).trans_lt hbefore
      exact ih (h.step hearly (hops op List.mem_cons_self) hm)
        (fun op hop => hops op (List.mem_cons_of_mem _ hop)) hrest

end Cooling

/-! ## The trip starts the cooldown -/

/-- A trip is a failure at or above the threshold, counted on the entry the key
names before and after. -/
theorem Trips.entry {p : KeyPool} {t : Instant} {acquired : AcquiredKey}
    (h : Trips p t acquired) :
    ∃ k, p.entryOf? acquired.key = some k ∧ 3 ≤ k.val.consecutiveErrors + 1 ∧
      (p.reportFailure t acquired).1.entryOf? acquired.key
        = some (k.update k.ptr (PooledKey.trip ∘ PooledKey.countError)) := by
  obtain ⟨hhealthy, hunhealthy⟩ := h
  obtain ⟨k, hentry, hk⟩ := Option.map_eq_some_iff.mp hhealthy
  have hle : 3 ≤ k.val.consecutiveErrors + 1 := by
    by_contra hlt
    -- below the threshold only the counter is written, so the entry stays healthy
    rw [KeyPool.reportFailure_of_lt hentry hlt, healthOf,
      KeyPool.entryOf?_modify (f := PooledKey.countError) _ (fun _ => rfl), hentry]
      at hunhealthy
    rw [Option.map_some, Option.map_some, Cell.update_self] at hunhealthy
    have hsame : k.val.healthy = false := Option.some.inj hunhealthy
    rw [hk] at hsame
    cases hsame
  refine ⟨k, hentry, hle, ?_⟩
  rw [KeyPool.reportFailure_of_le hentry hle,
    KeyPool.entryOf?_modify (f := PooledKey.trip ∘ PooledKey.countError) _
      (fun _ => rfl), hentry]
  rfl

/-- A trip at which no older task of the entry is pending starts a full
cooldown. -/
theorem cooling_of_trip {s s' : TimedPool} {t : Instant} {acquired : AcquiredKey}
    (hdistinct : s.pool.DistinctKeys) (htrips : Trips s.pool t acquired)
    (hclear : s.NoOlderTask (t, .reportFailure acquired))
    (hstep : s.step (t, .reportFailure acquired) = some s') :
    ∃ ptr, Cooling t ptr acquired.key s' := by
  obtain ⟨-, hpool, hnow⟩ := step_eq_some.mp hstep
  obtain ⟨now', pool'⟩ := s'
  cases hpool
  obtain ⟨k, hentry, hle, htripped⟩ := htrips.entry
  refine ⟨k.ptr, hnow.symm.le, hdistinct.of_keyNames_eq
    (s.pool.keyNames_reportFailure t acquired), ?_, ?_⟩
  · refine ⟨_, KeyPool.entryOf?_mem htripped, Cell.update_ptr _ _ _,
      KeyPool.entryOf?_key htripped, ?_⟩
    rw [Cell.update_self]
    rfl
  · intro task htask hptr
    rw [KeyPool.reportFailure_of_le hentry hle] at htask
    -- a pending task of the entry is an older one, or the one just spawned
    rcases List.mem_append.mp htask with hold | hnew
    · exact hclear htrips k hentry task hold hptr
    · obtain ⟨-, -, rfl⟩ := List.mem_map.mp hnew
      exact le_rfl

/-- A tripped key stays out for its full cooldown in every timed run in which, at
every trip, no task spawned by an earlier failure is still to fire on the entry
before the cooldown is over. -/
theorem cooldown_of_no_older_task {s s' : TimedPool}
    {ops : List (Instant × PoolOp)} (hdistinct : s.pool.DistinctKeys)
    (hrun : Runs.run step s ops = some s')
    (hclear : Runs.Along step NoOlderTask s ops) : CooldownKept s ops := by
  rintro before t acquired during t' after s₁ s₂ s₃ rfl hs₁ htrips hs₂ hs₃ hops ht'
  have hdistinct₁ : s₁.pool.DistinctKeys :=
    Runs.run_invariant (I := fun s : TimedPool => s.pool.DistinctKeys)
      (fun a op b ha hab => ha.step (step_eq_some.mp hab).2.1) hdistinct hs₁
  have hclear₁ := ((Runs.along_append hs₁).mp hclear).2.1
  obtain ⟨ptr, hcooling⟩ := cooling_of_trip hdistinct₁ htrips hclear₁ hs₂
  -- the run goes on after `s₃`, so the acquisition is not before its clock
  have hnow : s₃.now ≤ t' := by
    obtain ⟨m₁, hm₁, hrest⟩ := Runs.run_append_eq_some.mp hrun
    rw [hs₁] at hm₁
    cases hm₁
    obtain ⟨m₂, hm₂, hrest⟩ := Runs.run_cons_eq_some.mp hrest
    rw [hs₂] at hm₂
    cases hm₂
    obtain ⟨m₃, hm₃, hrest⟩ := Runs.run_append_eq_some.mp hrest
    rw [hs₃] at hm₃
    cases hm₃
    obtain ⟨m₄, hm₄, -⟩ := Runs.run_cons_eq_some.mp hrest
    exact (step_eq_some.mp hm₄).1.1
  have hcooling₃ := hcooling.run (hnow.trans_lt ht') hops hs₃
  exact hcooling₃.out.acquireKey_ne hcooling₃.distinct

/-- A new pool of one key. -/
def oneKey : TimedPool where
  now := 0
  pool := KeyPool.new [{ key := "tp-1", weight := 1 }]

/-- One outage of one key, and an acquisition half a minute after its trip. -/
theorem cooldown_of_one_outage :
    CooldownKept oneKey
      [(0, .reportFailure ⟨"tp-1"⟩), (0, .reportFailure ⟨"tp-1"⟩),
        (0, .reportFailure ⟨"tp-1"⟩), (Duration.fromSecs 30, .acquireKey)] :=
  cooldown_of_no_older_task (by decide) (Option.some_get (by decide)).symm (by decide)

/-! ## A late report cuts a cooldown short -/

/-- Four requests are in flight when the key starts to fail.  Three failures trip
it at once; the fourth arrives after 30 seconds and spawns a second task.  The
key recovers after a minute, fails three more times a second later, and is
revived by the second task after 29 of its 60 seconds. -/
def lateReport : List (Instant × PoolOp) :=
  let key : AcquiredKey := ⟨"tp-1"⟩
  let at_ (n : ℕ) : Instant := Duration.fromSecs n
  [(at_ 0, .acquireKey), (at_ 0, .acquireKey), (at_ 0, .acquireKey),
    (at_ 0, .acquireKey), (at_ 0, .reportFailure key), (at_ 0, .reportFailure key),
    (at_ 0, .reportFailure key), (at_ 30, .reportFailure key),
    (at_ 60, .recover ⟨0, at_ 60⟩), (at_ 61, .acquireKey), (at_ 61, .acquireKey),
    (at_ 61, .acquireKey), (at_ 61, .reportFailure key), (at_ 61, .reportFailure key),
    (at_ 61, .reportFailure key), (at_ 90, .recover ⟨0, at_ 90⟩),
    (at_ 90, .acquireKey)]

/-- The cooldown is not kept in every timed run on a pool with distinct keys. -/
theorem lateReport_cuts_cooldown :
    oneKey.pool.DistinctKeys ∧ (Runs.run step oneKey lateReport).isSome ∧
      ¬ CooldownKept oneKey lateReport := by
  refine ⟨by decide, by decide, fun h => ?_⟩
  -- the second trip, the firing of the older task, and an acquisition
  exact h (lateReport.take 14) (Duration.fromSecs 61) ⟨"tp-1"⟩
    ((lateReport.drop 15).take 1) (Duration.fromSecs 90) []
    ((Runs.run step oneKey (lateReport.take 14)).get (by decide))
    ((Runs.run step oneKey (lateReport.take 15)).get (by decide))
    ((Runs.run step oneKey (lateReport.take 16)).get (by decide))
    rfl (Option.some_get _).symm (by decide) (by decide) (by decide) (by decide)
    (by decide) (by decide)

end TimedPool

end XiaomiProxy
