import XiaomiProxy.Proxy.PoolRuns

/-!
# The circuit breaker

The invariant of the breaker over all runs of pool operations: a healthy entry
has fewer than three consecutive errors, and an unhealthy one is held by a
recovery task that has not fired, so that it will be revived.

The invariant needs `reportFailure` to return: a panic in its log line leaves an
unhealthy entry without a task.
-/

namespace XiaomiProxy.KeyPool

/-- What the breaker promises of one entry, given the tasks that have not
fired. -/
structure EntryOk (tasks : List RecoveryTask) (k : Cell PooledKey) : Prop where
  errors_lt : k.val.healthy = true → k.val.consecutiveErrors < 3
  held : k.val.healthy = false → ∃ task ∈ tasks, task.ptr = k.ptr

/-- The invariant of the breaker. -/
def BreakerOk (p : KeyPool) : Prop := ∀ k ∈ p.keys.cells, EntryOk p.tasks k

section EntryOk

variable {tasks tasks' : List RecoveryTask} {k : Cell PooledKey}

/-- An entry that is healthy without errors keeps the promise whatever the
tasks. -/
theorem EntryOk.of_clear (hhealthy : k.val.healthy = true)
    (herrors : k.val.consecutiveErrors = 0) : EntryOk tasks k :=
  ⟨fun _ => by rw [herrors]; decide, fun h => by rw [hhealthy] at h; cases h⟩

/-- A store that touches neither health nor errors keeps the promise. -/
theorem EntryOk.update {f : PooledKey → PooledKey} (h : EntryOk tasks k) (ptr : ℕ)
    (hhealthy : ∀ e, (f e).healthy = e.healthy)
    (herrors : ∀ e, (f e).consecutiveErrors = e.consecutiveErrors) :
    EntryOk tasks (k.update ptr f) := by
  constructor
  · rw [Cell.update_attr hhealthy, Cell.update_attr herrors]
    exact h.errors_lt
  · rw [Cell.update_attr hhealthy, Cell.update_ptr]
    exact h.held

/-- New tasks do not hurt. -/
theorem EntryOk.append (h : EntryOk tasks k) : EntryOk (tasks ++ tasks') k := by
  refine ⟨h.errors_lt, fun hk => ?_⟩
  obtain ⟨task, hmem, hptr⟩ := h.held hk
  exact ⟨task, List.mem_append_left _ hmem, hptr⟩

end EntryOk

/-! ## One step keeps the invariant -/

section Steps

variable {p : KeyPool}

theorem BreakerOk.acquireKey (h : p.BreakerOk) : p.acquireKey.1.BreakerOk := by
  rcases p.acquireKey_cases with ⟨e, -, heq⟩ | ⟨k, index, -, -, -, heq⟩
  · rw [heq]
    exact h
  · rw [heq]
    exact SharedVec.forall_mem_modify.mpr fun l hl =>
      (h l hl).update k.ptr (fun _ => rfl) (fun _ => rfl)

/-- A success clears the errors and leaves the health as it is. -/
theorem BreakerOk.reportSuccess (h : p.BreakerOk) (acquired : AcquiredKey) :
    (p.reportSuccess acquired).BreakerOk := by
  cases hentry : p.entryOf? acquired.key with
  | none =>
      rw [reportSuccess_of_none hentry]
      exact h
  | some k =>
      rw [reportSuccess_of_some hentry]
      refine SharedVec.forall_mem_modify.mpr ?_
      intro l hl
      by_cases hptr : l.ptr = k.ptr
      · rw [← hptr, Cell.update_self]
        exact ⟨fun _ => (by decide : (0 : UInt32) < 3), (h l hl).held⟩
      · rw [Cell.update_of_ne _ hptr]
        exact h l hl

/-- A failure below the threshold leaves the entry with fewer than three errors;
at the threshold the entry is tripped and the new task holds it. -/
theorem BreakerOk.reportFailure (h : p.BreakerOk) {now : Instant}
    {acquired : AcquiredKey} (hreturns : (p.reportFailure now acquired).2 = some ()) :
    (p.reportFailure now acquired).1.BreakerOk := by
  cases hentry : p.entryOf? acquired.key with
  | none =>
      rw [reportFailure_of_none hentry]
      exact h
  | some k =>
      by_cases hle : 3 ≤ k.val.consecutiveErrors + 1
      · rw [reportFailure_of_le hentry hle] at hreturns ⊢
        obtain ⟨masked, hmask, -⟩ := Option.map_eq_some_iff.mp hreturns
        refine SharedVec.forall_mem_modify.mpr ?_
        intro l hl
        by_cases hptr : l.ptr = k.ptr
        · rw [← hptr, Cell.update_self]
          refine ⟨fun hhealthy => Bool.noConfusion hhealthy, ?_⟩
          intro _
          exact ⟨⟨l.ptr, now + cooldown⟩, by simp [hmask], rfl⟩
        · rw [Cell.update_of_ne _ hptr]
          exact (h l hl).append
      · rw [reportFailure_of_lt hentry hle]
        refine SharedVec.forall_mem_modify.mpr ?_
        intro l hl
        by_cases hptr : l.ptr = k.ptr
        · have hlk := p.keys.eq_of_ptr_eq hl (entryOf?_mem hentry) hptr
          subst hlk
          rw [Cell.update_self]
          exact ⟨fun _ => UInt32.not_le.mp hle, (h l hl).held⟩
        · rw [Cell.update_of_ne _ hptr]
          exact h l hl

/-- A task revives the entry it holds; every other entry keeps its tasks. -/
theorem BreakerOk.recover (h : p.BreakerOk) (task : RecoveryTask) :
    (p.recover task).BreakerOk := by
  refine SharedVec.forall_mem_modify.mpr ?_
  intro l hl
  by_cases hptr : l.ptr = task.ptr
  · rw [← hptr, Cell.update_self]
    exact EntryOk.of_clear rfl rfl
  · rw [Cell.update_of_ne _ hptr]
    refine ⟨(h l hl).errors_lt, fun hhealthy => ?_⟩
    obtain ⟨other, hmem, hother⟩ := (h l hl).held hhealthy
    -- the task that fires holds another entry, so erasing it loses nothing here
    have hne : other ≠ task := fun heq => hptr (by rw [← hother, heq])
    exact ⟨other, (List.mem_erase_of_ne hne).mpr hmem, hother⟩

theorem BreakerOk.addKey (h : p.BreakerOk) (key : String) (weight : UInt32) :
    (p.addKey key weight).BreakerOk := by
  cases hentry : p.entryOf? key with
  | none =>
      rw [addKey_of_none hentry]
      intro k hk
      rcases List.mem_append.mp hk with hk | hk
      · exact h k hk
      · rw [List.mem_singleton.mp hk]
        exact EntryOk.of_clear rfl rfl
  | some existing =>
      rw [addKey_of_some hentry]
      refine SharedVec.forall_mem_modify.mpr ?_
      intro l hl
      by_cases hptr : l.ptr = existing.ptr
      · rw [← hptr, Cell.update_self]
        exact EntryOk.of_clear rfl rfl
      · rw [Cell.update_of_ne _ hptr]
        exact h l hl

theorem BreakerOk.removeKey (h : p.BreakerOk) (key : String) :
    (p.removeKey key).BreakerOk :=
  fun k hk => h k (List.mem_of_mem_filter hk)

/-- Every step that returns keeps the invariant. -/
theorem BreakerOk.step (h : p.BreakerOk) {op : Instant × PoolOp} {p' : KeyPool}
    (hreturns : p.Returns op) (hstep : p.step op = some p') : p'.BreakerOk := by
  obtain ⟨now, op⟩ := op
  cases op with
  | acquireKey =>
      cases hstep
      exact h.acquireKey
  | reportSuccess acquired =>
      cases hstep
      exact h.reportSuccess acquired
  | reportFailure acquired =>
      cases hstep
      exact h.reportFailure hreturns
  | recover task =>
      obtain ⟨-, rfl⟩ := step_recover.mp hstep
      exact h.recover task
  | addKey key weight =>
      cases hstep
      exact h.addKey key weight
  | removeKey key =>
      cases hstep
      exact h.removeKey key

end Steps

/-! ## Runs -/

/-- A new pool keeps the promise: all its entries are healthy. -/
theorem breakerOk_new (configs : List DownstreamKeyConfig) :
    (new configs).BreakerOk := by
  intro k hk
  have hval : k.val ∈ (new configs).keys.cells.map Cell.val :=
    List.mem_map_of_mem hk
  rw [new, SharedVec.ofList_vals] at hval
  obtain ⟨c, -, hc⟩ := List.mem_map.mp hval
  exact EntryOk.of_clear (by rw [← hc]; rfl) (by rw [← hc]; rfl)

/-- The circuit-breaker invariant: in every run of operations that return, from
any new pool, a healthy entry has fewer than three consecutive errors and an
unhealthy one is held by a recovery task that has not fired. -/
theorem breaker_invariant {configs : List DownstreamKeyConfig}
    {ops : List (Instant × PoolOp)} {p : KeyPool}
    (hreturns : Runs.Along step Returns (new configs) ops)
    (hrun : Runs.run step (new configs) ops = some p) :
    ∀ k ∈ p.keys.cells,
      (k.val.healthy = true → k.val.consecutiveErrors < 3) ∧
        (k.val.healthy = false → ∃ task ∈ p.tasks, task.ptr = k.ptr) := by
  have hinv : p.BreakerOk :=
    Runs.run_invariant_of_along (fun _ _ _ h hret hstep => h.step hret hstep)
      (breakerOk_new configs) hreturns hrun
  exact fun k hk => ⟨(hinv k hk).errors_lt, (hinv k hk).held⟩

/-- A key that is acquired once and fails three times. -/
def threeFailures : List (Instant × PoolOp) :=
  [(0, .acquireKey), (0, .reportFailure ⟨"tp-1"⟩), (0, .reportFailure ⟨"tp-1"⟩),
    (0, .reportFailure ⟨"tp-1"⟩)]

/-- The pool they lead to: the entry is out of rotation, and its task is pending. -/
def afterThreeFailures : KeyPool where
  keys := SharedVec.ofList [⟨"tp-1", 1, false, 3, 1⟩]
  state := { roundRobinIndex := 0 }
  tasks := [⟨0, cooldown⟩]

theorem breaker_invariant_tripped :
    Runs.run step (new [⟨"tp-1", 1⟩]) threeFailures = some afterThreeFailures ∧
      ∃ k ∈ afterThreeFailures.keys.cells, k.val.healthy = false ∧
        ∃ task ∈ afterThreeFailures.tasks, task.ptr = k.ptr := by
  have hrun : Runs.run step (new [⟨"tp-1", 1⟩]) threeFailures = some afterThreeFailures := by
    decide
  refine ⟨hrun, ⟨0, ⟨"tp-1", 1, false, 3, 1⟩⟩, by decide, rfl, ?_⟩
  exact (breaker_invariant (by decide) hrun _ (by decide)).2 rfl

end XiaomiProxy.KeyPool
