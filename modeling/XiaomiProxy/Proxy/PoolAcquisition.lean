import XiaomiProxy.Proxy.PoolGuards

/-!
# What an acquisition sees

`acquire_key` loads the flags of the entries one after the other, and a report or a
recovery task may store a flag in between.  So the flags it has in hand when it selects
need not be those of any one moment.  Each of them was right at some moment, though: when
the call loaded it, with the mutex of the round robin in hand, which it has not let go of
since (`Saw`).  And apart from the flags nothing has changed, so the call selects what
`KeyPool.acquireKey` would have selected from the flags that it saw.
-/

namespace XiaomiProxy.PoolMachine

open PoolThread

/-- At some moment of the run the flag of the entry was `flag`, and from then on the mutex
was never free. -/
def Saw (start : PoolMachine) (as : List (Threads.Action PoolThread)) (ptr : ℕ)
    (flag : Bool) : Prop :=
  ∃ before after moment, as = before ++ after ∧
    Runs.run step start before = some moment ∧ moment.memory.healthyAt ptr = flag ∧
    Runs.Always step (fun m => m.memory.stateLocked = true) moment after

/-- What a call does with its selection. -/
def answer : Except AppError (Cell PooledKey) → PoolThread
  | .error e => .acquireDropKeys (.error e)
  | .ok k => .acquireCount k.ptr k.val.key

/-- A call at its loop over the flags has seen those of the entries it has passed. -/
def Seeing (start : PoolMachine) (as : List (Threads.Action PoolThread))
    (m : PoolMachine) : Prop :=
  ∀ healthy rest, .acquireFilter healthy rest ∈ m.threads →
    ∃ (flag : ℕ → Bool) (passed : List ℕ), passed ++ rest = m.memory.ptrs ∧
      healthy = passed.filter flag ∧ ∀ ptr ∈ passed, Saw start as ptr (flag ptr)

/-- A call comes to its loop with nothing loaded, or goes round it once more. -/
theorem filter_cases {s s' : PoolMemory} {t : PoolThread} {left : Multiset PoolThread}
    (h : Moves s t s' left) {healthy rest : List ℕ}
    (hmem : .acquireFilter healthy rest ∈ left) :
    (t = .acquireRead ∧ healthy = [] ∧ rest = s'.ptrs) ∨
      ∃ loaded ptr, t = .acquireFilter loaded (ptr :: rest) ∧ s' = s ∧
        healthy = if s.healthyAt ptr then loaded ++ [ptr] else loaded := by
  have hfound : ∀ (sought : Option (Cell PooledKey)) (next : Cell PooledKey → PoolThread),
      (∀ k, .acquireFilter healthy rest ≠ next k) →
      .acquireFilter healthy rest ≠ found sought next := by
    intro sought next hnext
    cases sought with
    | none => exact PoolThread.noConfusion
    | some k => exact hnext k
  cases h with
  | readEntries =>
      cases Multiset.mem_singleton.mp hmem
      exact Or.inl ⟨rfl, rfl, rfl⟩
  | load loaded rest ptr =>
      cases Multiset.mem_singleton.mp hmem
      exact Or.inr ⟨loaded, ptr, rfl, rfl, rfl⟩
  | findSuccess | findFailure =>
      exact absurd (Multiset.mem_singleton.mp hmem)
        (hfound _ _ fun _ => PoolThread.noConfusion)
  | _ => simp at hmem

section Saw

variable {start m m' : PoolMachine} {as : List (Threads.Action PoolThread)}
  {a : Threads.Action PoolThread} {ptr : ℕ} {flag : Bool}

/-- What has been seen stays seen while the mutex is not free. -/
theorem Saw.append (h : Saw start as ptr flag) (hrun : Runs.run step start as = some m)
    (hstep : step m a = some m') (hm : m.memory.stateLocked = true)
    (hm' : m'.memory.stateLocked = true) : Saw start (as ++ [a]) ptr flag := by
  obtain ⟨before, after, moment, rfl, hbefore, hflag, hlocked⟩ := h
  obtain ⟨moment', hmoment', hafter⟩ := Runs.run_append_eq_some.mp hrun
  obtain rfl := Option.some.inj (hbefore.symm.trans hmoment')
  exact ⟨before, after ++ [a], moment, List.append_assoc .., hbefore, hflag,
    hlocked.append hafter (Runs.always_singleton hm hstep hm')⟩

/-- What is loaded is seen. -/
theorem saw_load (hrun : Runs.run step start as = some m) (hstep : step m a = some m')
    (hm : m.memory.stateLocked = true) (hm' : m'.memory.stateLocked = true) (ptr : ℕ) :
    Saw start (as ++ [a]) ptr (m.memory.healthyAt ptr) :=
  ⟨as, [a], m, rfl, hrun, rfl, Runs.always_singleton hm hstep hm'⟩

/-- A thread that holds the mutex has locked it. -/
theorem Guarded.locked (h : Guarded m) {t : PoolThread} (ht : t ∈ m.threads)
    (hholds : t.holdsState = 1) : m.memory.stateLocked = true := by
  have hle := Threads.le_held holdsState ht
  rw [hholds, ← h.state] at hle
  by_contra hfree
  rw [Bool.eq_false_of_not_eq_true hfree, Bool.toNat_false] at hle
  omega

theorem Seeing.step (h : Seeing start as m) (hrun : Runs.run step start as = some m)
    (hguarded : Guarded m) (hstep : step m a = some m') : Seeing start (as ++ [a]) m' := by
  have hguarded' := hguarded.step hstep
  -- a call that is at its loop before and after the step has seen as much as before
  have hkept : ∀ healthy rest, .acquireFilter healthy rest ∈ m.threads →
      .acquireFilter healthy rest ∈ m'.threads → m'.memory.ptrs = m.memory.ptrs →
      ∃ (flag : ℕ → Bool) (passed : List ℕ), passed ++ rest = m'.memory.ptrs ∧
        healthy = passed.filter flag ∧
        ∀ ptr ∈ passed, Saw start (as ++ [a]) ptr (flag ptr) := by
    intro healthy rest hmem hmem' hptrs
    obtain ⟨flag, passed, hpassed, hhealthy, hsaw⟩ := h healthy rest hmem
    refine ⟨flag, passed, hpassed.trans hptrs.symm, hhealthy, fun ptr hptr => ?_⟩
    exact (hsaw ptr hptr).append hrun hstep (hguarded.locked hmem rfl)
      (hguarded'.locked hmem' rfl)
  intro healthy rest hmem'
  rcases Threads.step_cases hstep with ⟨t, -, hentry, rfl⟩ |
    ⟨t, others, memory, left, -, hthreads, hnext, rfl⟩
  · rcases Multiset.mem_cons.mp hmem' with rfl | hmem
    · cases hentry
    · exact hkept healthy rest hmem hmem' rfl
  · have ht : t ∈ m.threads := by
      rw [hthreads]
      exact Multiset.mem_cons_self t others
    rcases Multiset.mem_add.mp hmem' with hleft | hothers
    · rcases filter_cases (moves_of_advance hnext) hleft with
        ⟨-, rfl, rfl⟩ | ⟨loaded, ptr, rfl, rfl, rfl⟩
      · exact ⟨fun _ => false, [], rfl, rfl, fun ptr hptr => absurd hptr List.not_mem_nil⟩
      · obtain ⟨flag, passed, hpassed, rfl, hsaw⟩ := h loaded (ptr :: rest) ht
        have hlocked := hguarded.locked ht rfl
        have hlocked' := hguarded'.locked hmem' rfl
        -- the pointers of a vector are distinct, so this one has not been passed yet
        have hnew : ptr ∉ passed := by
          intro hptr
          have hnodup : (passed ++ ptr :: rest).Nodup := hpassed ▸ m.memory.keys.ptr_nodup
          exact (List.nodup_append.mp hnodup).2.2 ptr hptr ptr List.mem_cons_self rfl
        have hold : ∀ p ∈ passed,
            Function.update flag ptr (m.memory.healthyAt ptr) p = flag p := by
          intro p hp
          have hne : p ≠ ptr := fun heq => hnew (heq ▸ hp)
          exact Function.update_of_ne hne _ _
        refine ⟨Function.update flag ptr (m.memory.healthyAt ptr), passed ++ [ptr], ?_, ?_,
          fun p hp => ?_⟩
        · rw [List.append_assoc]
          exact hpassed
        · rw [List.filter_append, List.filter_congr hold, List.filter_singleton,
            Function.update_self]
          split <;> simp_all
        · rcases List.mem_append.mp hp with hp | hp
          · rw [hold p hp]
            exact (hsaw p hp).append hrun hstep hlocked hlocked'
          · rw [List.mem_singleton.mp hp, Function.update_self]
            exact saw_load hrun hstep hlocked hlocked' ptr
    · have hmem : .acquireFilter healthy rest ∈ m.threads := by
        rw [hthreads]
        exact Multiset.mem_cons_of_mem hothers
      refine hkept healthy rest hmem hmem' ?_
      rw [PoolMemory.ptrs_eq_layout, PoolMemory.ptrs_eq_layout,
        hguarded.frozen hthreads hmem rfl hnext]

/-- **An acquisition selects from what it saw.**  However the calls interleave, a call that
selects does so among the entries whose flags it has seen up, each flag at a moment since
which it has held the mutex; by the weights of now, and by the index of now. -/
theorem selects_what_it_saw {p : KeyPool} {healthy : List ℕ}
    (hrun : Runs.run step (idle p) as = some m)
    (hstep : step m (.advance (.acquireFilter healthy [])) = some m') :
    ∃ flag : ℕ → Bool, (∀ k ∈ m.memory.keys.cells, Saw (idle p) as k.ptr (flag k.ptr)) ∧
      answer (KeyPool.selectAmong m.memory.state.roundRobinIndex
        (m.memory.keys.cells.filter fun k => flag k.ptr)) ∈ m'.threads := by
  have hseeing : Seeing (idle p) as m := by
    refine Runs.run_invariant_history (H := Seeing (idle p)) ?_
      (fun as m a m' hbefore h hstep => h.step hbefore ?_ hstep) hrun
    · intro healthy rest hmem
      obtain ⟨task, -, heq⟩ := List.mem_map.mp (Multiset.mem_coe.mp hmem)
      cases heq
    · exact Runs.run_invariant (fun _ _ _ h hstep => h.step hstep) (guarded_idle p) hbefore
  obtain ⟨others, memory, left, hthreads, hnext, rfl⟩ := Threads.step_advance.mp hstep
  have hmem : .acquireFilter healthy [] ∈ m.threads := by
    rw [hthreads]
    exact Multiset.mem_cons_self _ others
  obtain ⟨flag, passed, hpassed, rfl, hsaw⟩ := hseeing healthy [] hmem
  rw [List.append_nil] at hpassed
  subst hpassed
  refine ⟨flag, fun k hk => hsaw k.ptr (List.mem_map_of_mem hk), ?_⟩
  rw [← filterMap_at?_flag, ← PoolMemory.ptrs]
  refine Multiset.mem_add.mpr (Or.inl ?_)
  cases moves_of_advance hnext with
  | refuse selected =>
      rw [selected]
      exact Multiset.mem_singleton_self _
  | select selected =>
      rw [selected]
      exact Multiset.mem_singleton_self _

/-- Three failures counted, and an acquisition that loads the flag before the third report
trips the entry. -/
def overtaking : List (Threads.Action PoolThread) :=
  [.start (.reportFailure ⟨"tp-1"⟩), .start (.reportFailure ⟨"tp-1"⟩),
    .start (.reportFailure ⟨"tp-1"⟩), .advance (.reportFailure ⟨"tp-1"⟩),
    .advance (.reportFailure ⟨"tp-1"⟩), .advance (.reportFailure ⟨"tp-1"⟩),
    .advance (.failureFound 0 "tp-1"), .advance (.failureFound 0 "tp-1"),
    .advance (.failureFound 0 "tp-1"), .start .acquireKey, .advance .acquireKey,
    .advance .acquireRead, .advance (.acquireFilter [] [0]),
    .advance (.failureCounted 0 "tp-1" 3)]

/-- An acquisition before its selection, with the flag of an entry that is out of rotation
by now. -/
def overtaken : PoolMachine where
  memory := {
    keys := SharedVec.ofList [⟨"tp-1", 1, false, 3, 0⟩]
    state := { roundRobinIndex := 0 }
    stateLocked := true
    readers := 4
    writing := false }
  threads := {.acquireFilter [0] [], .failureCounted 0 "tp-1" 1, .failureCounted 0 "tp-1" 2,
    .failureTripped 0 "tp-1"}

theorem selects_what_it_saw_overtaken :
    ∃ (m' : PoolMachine) (flag : ℕ → Bool),
      step overtaken (.advance (.acquireFilter [0] [])) = some m' ∧
      Saw (idle (KeyPool.new [⟨"tp-1", 1⟩])) overtaking 0 (flag 0) ∧
      overtaken.memory.healthyAt 0 = false := by
  obtain ⟨m', hm'⟩ : ∃ m', step overtaken (.advance (.acquireFilter [0] [])) = some m' :=
    Option.isSome_iff_exists.mp (by decide +kernel)
  obtain ⟨flag, hsaw, -⟩ := @selects_what_it_saw overtaken m' overtaking
    (KeyPool.new [⟨"tp-1", 1⟩]) [0] (by decide +kernel) hm'
  exact ⟨m', flag, hm', hsaw ⟨0, ⟨"tp-1", 1, false, 3, 0⟩⟩ (by decide), by decide⟩

end Saw

end XiaomiProxy.PoolMachine
