import XiaomiProxy.Proxy.PoolGuards
import XiaomiProxy.Proxy.PoolHealing

/-!
# Three strikes

What the error counter of an entry counts, however the calls interleave.  An action
strikes an entry when a failure report counts an error on it, and forgives it when a
success report, a recovery task or an addition stores zero.  `strikes` counts the strikes
since the last forgiveness, over the actions of a run.

* The counter is the number of strikes, as a `u32`: no report is lost among others that
  count at the same time.
* An entry is out of rotation only if it once had three strikes or more.  The store that
  takes it out may come later, when the strikes have been forgiven: a report trips the
  entry for the errors it counted, whatever has happened to them since.
-/

namespace XiaomiProxy

namespace PoolThread

/-- The next action of the thread counts an error on the entry. -/
def strikes (ptr : ℕ) : PoolThread → Bool
  | .failureFound p _ => p = ptr
  | _ => false

/-- The next action of the thread stores zero into the error counter of the entry. -/
def forgives (ptr : ℕ) : PoolThread → Bool
  | .successFound p | .revived p | .addRevived p => p = ptr
  | _ => false

/-- The strikes after the next action of the thread. -/
def tally (ptr : ℕ) (t : PoolThread) (n : ℕ) : ℕ :=
  if t.forgives ptr then 0 else if t.strikes ptr then n + 1 else n

@[simp] theorem tally_failureFound (ptr : ℕ) (key : String) (n : ℕ) :
    tally ptr (.failureFound ptr key) n = n + 1 := by
  simp [tally, forgives, strikes]

theorem eq_failureFound_of_strikes {ptr : ℕ} {t : PoolThread} (h : t.strikes ptr = true) :
    ∃ key, t = .failureFound ptr key := by
  cases t with
  | failureFound p key => exact ⟨key, by rw [of_decide_eq_true h]⟩
  | _ => cases h

theorem tally_eq_zero_of_not_strikes {ptr : ℕ} {t : PoolThread}
    (h : ¬ t.strikes ptr = true) : t.tally ptr 0 = 0 := by
  rw [tally, if_neg h]
  split <;> rfl

section Tally

variable {s s' : PoolMemory} {t : PoolThread} {left : Multiset PoolThread}
  {k' : Cell PooledKey}

/-- **A counter follows the tally.**  The entry was there before the action, and its
counter with it; or the entry is new, and its counter is zero. -/
theorem Moves.errors (h : Moves s t s' left) (hk' : k' ∈ s'.keys.cells) :
    (k'.ptr = s.keys.next ∧ k'.val.consecutiveErrors = 0 ∧ ∀ n, t.tally k'.ptr n = n) ∨
      ∃ k ∈ s.keys.cells, k.ptr = k'.ptr ∧ ∀ n,
        k.val.consecutiveErrors = UInt32.ofNat n →
          k'.val.consecutiveErrors = UInt32.ofNat (t.tally k'.ptr n) := by
  -- a store into the entry at `ptr`
  have hstore : ∀ ptr f, k' ∈ (s.store ptr f).keys.cells →
      (∀ e : PooledKey, ∀ n, e.consecutiveErrors = UInt32.ofNat n →
        (f e).consecutiveErrors = UInt32.ofNat (t.tally ptr n)) →
      (∀ p, p ≠ ptr → ∀ n, t.tally p n = n) →
      ∃ k ∈ s.keys.cells, k.ptr = k'.ptr ∧ ∀ n,
        k.val.consecutiveErrors = UInt32.ofNat n →
          k'.val.consecutiveErrors = UInt32.ofNat (t.tally k'.ptr n) := by
    intro ptr f hmem hat helse
    obtain ⟨k, hk, rfl⟩ := SharedVec.mem_modify.mp hmem
    refine ⟨k, hk, (Cell.update_ptr ptr f k).symm, fun n hn => ?_⟩
    rw [Cell.update_ptr]
    by_cases hptr : k.ptr = ptr
    · rw [← hptr, Cell.update_self, hptr]
      exact hat k.val n hn
    · rw [Cell.update_of_ne f hptr, helse k.ptr hptr]
      exact hn
  cases h with
  | countRequest ptr | trip ptr | wake ptr | weigh ptr | revive ptr =>
      exact Or.inr (hstore ptr _ hk' (fun _ _ hn => hn) fun _ _ _ => rfl)
  | countError ptr key =>
      refine Or.inr (hstore ptr _ hk' (fun e n hn => ?_) fun p hp n => ?_)
      · rw [tally_failureFound, UInt32.ofNat_add, ← hn]
        rfl
      · simp [tally, forgives, strikes, hp.symm]
  | clearErrors ptr | recovered ptr | forgive ptr =>
      refine Or.inr (hstore ptr _ hk' (fun e n hn => ?_) fun p hp n => ?_)
      · simp [tally, forgives, PooledKey.clearErrors]
      · simp [tally, forgives, strikes, hp.symm]
  | push weight =>
      rcases List.mem_append.mp hk' with hk' | hk'
      · exact Or.inr ⟨k', hk', rfl, fun _ hn => hn⟩
      · rw [List.mem_singleton.mp hk']
        exact Or.inl ⟨rfl, rfl, fun _ => rfl⟩
  | retain key =>
      exact Or.inr ⟨k', List.mem_of_mem_filter hk', rfl, fun _ hn => hn⟩
  | _ => exact Or.inr ⟨k', hk', rfl, fun _ hn => hn⟩

/-- A report that has counted has just counted, or had counted before. -/
theorem Moves.counted (h : Moves s t s' left) {ptr : ℕ} {key : String} {errors : UInt32}
    (hmem : .failureCounted ptr key errors ∈ left) :
    t = .failureFound ptr key ∧ errors = s.errorsAt ptr + 1 := by
  have hfound : ∀ (sought : Option (Cell PooledKey)) (next : Cell PooledKey → PoolThread),
      (∀ k, .failureCounted ptr key errors ≠ next k) →
      .failureCounted ptr key errors ≠ found sought next := by
    intro sought next hnext
    cases sought with
    | none => exact PoolThread.noConfusion
    | some k => exact hnext k
  cases h with
  | countError p key' =>
      cases Multiset.mem_singleton.mp hmem
      exact ⟨rfl, rfl⟩
  | findSuccess | findFailure =>
      exact absurd (Multiset.mem_singleton.mp hmem)
        (hfound _ _ fun _ => PoolThread.noConfusion)
  | _ => simp at hmem

/-- An entry out of rotation was so before, or has just been tripped. -/
theorem Moves.down (h : Moves s t s' left) (hk' : k' ∈ s'.keys.cells)
    (hdown : k'.val.healthy = false) :
    (∃ k ∈ s.keys.cells, k.ptr = k'.ptr ∧ k.val.healthy = false) ∨
      ∃ key errors, t = .failureCounted k'.ptr key errors ∧ 3 ≤ errors := by
  -- a store that takes nothing out of rotation
  have hstore : ∀ ptr f, k' ∈ (s.store ptr f).keys.cells →
      (∀ e : PooledKey, (f e).healthy = false → e.healthy = false) →
      ∃ k ∈ s.keys.cells, k.ptr = k'.ptr ∧ k.val.healthy = false := by
    intro ptr f hmem hf
    obtain ⟨k, hk, rfl⟩ := SharedVec.mem_modify.mp hmem
    refine ⟨k, hk, (Cell.update_ptr ptr f k).symm, ?_⟩
    rw [Cell.update_val] at hdown
    split at hdown
    · exact hf k.val hdown
    · exact hdown
  cases h with
  | countRequest ptr | clearErrors ptr | countError ptr | weigh ptr | recovered ptr
  | forgive ptr =>
      exact Or.inl (hstore ptr _ hk' fun _ h => h)
  | wake ptr | revive ptr => exact Or.inl (hstore ptr _ hk' fun _ h => Bool.noConfusion h)
  | trip ptr key three =>
      obtain ⟨k, hk, rfl⟩ := SharedVec.mem_modify.mp hk'
      rw [Cell.update_ptr]
      by_cases hptr : k.ptr = ptr
      · exact Or.inr ⟨key, _, by rw [hptr], three⟩
      · rw [Cell.update_of_ne _ hptr] at hdown
        exact Or.inl ⟨k, hk, rfl, hdown⟩
  | push weight =>
      rcases List.mem_append.mp hk' with hk' | hk'
      · exact Or.inl ⟨k', hk', rfl, hdown⟩
      · rw [List.mem_singleton.mp hk'] at hdown
        cases hdown
  | retain key => exact Or.inl ⟨k', List.mem_of_mem_filter hk', rfl, hdown⟩
  | _ => exact Or.inl ⟨k', hk', rfl, hdown⟩

end Tally

end PoolThread

namespace PoolMachine

open PoolThread

/-- The strikes on an entry since it was last forgiven, over the actions of a run. -/
def strikes (ptr : ℕ) (as : List (Threads.Action PoolThread)) : ℕ :=
  as.foldl (fun n a => match a with
    | .start _ => n
    | .advance t => t.tally ptr n) 0

section Strikes

variable {ptr : ℕ} {as : List (Threads.Action PoolThread)} {t : PoolThread}

theorem strikes_start : strikes ptr (as ++ [.start t]) = strikes ptr as := by
  rw [strikes, List.foldl_append]
  rfl

theorem strikes_advance :
    strikes ptr (as ++ [.advance t]) = t.tally ptr (strikes ptr as) := by
  rw [strikes, List.foldl_append]
  rfl

end Strikes

/-- The counters after the actions of a run. -/
structure Counted (as : List (Threads.Action PoolThread)) (m : PoolMachine) : Prop where
  errors : ∀ k ∈ m.memory.keys.cells,
    k.val.consecutiveErrors = UInt32.ofNat (strikes k.ptr as)
  unborn : ∀ ptr, m.memory.keys.next ≤ ptr → strikes ptr as = 0
  reports : ∀ ptr key errors, .failureCounted ptr key errors ∈ m.threads →
    ∃ before, before <+: as ∧ errors = UInt32.ofNat (strikes ptr before)
  down : ∀ k ∈ m.memory.keys.cells, k.val.healthy = false →
    ∃ before, before <+: as ∧ 3 ≤ strikes k.ptr before

section Counted

variable {m m' : PoolMachine} {as : List (Threads.Action PoolThread)}
  {a : Threads.Action PoolThread}

theorem three_le_of_ofNat {n : ℕ} (h : 3 ≤ UInt32.ofNat n) : 3 ≤ n := by
  have hle := UInt32.le_iff_toNat_le.mp h
  rw [UInt32.toNat_ofNat'] at hle
  exact le_trans hle (Nat.mod_le _ _)

/-- What has been seen before is seen before one more action. -/
theorem before_append {Q : List (Threads.Action PoolThread) → Prop}
    (h : ∃ before, before <+: as ∧ Q before) (a : Threads.Action PoolThread) :
    ∃ before, before <+: as ++ [a] ∧ Q before := by
  obtain ⟨before, hprefix, hq⟩ := h
  exact ⟨before, hprefix.trans (List.prefix_append as [a]), hq⟩

theorem Counted.step (h : Counted as m) (hnames : Threads.Asserts Names m)
    (hpresent : Threads.Asserts Present m) (hstep : step m a = some m') :
    Counted (as ++ [a]) m' := by
  rcases Threads.step_cases hstep with ⟨t, rfl, hentry, rfl⟩ |
    ⟨t, others, memory, left, rfl, hthreads, hnext, rfl⟩
  · refine ⟨?_, ?_, ?_, fun k hk hdown => before_append (h.down k hk hdown) _⟩
    · simpa only [strikes_start] using h.errors
    · simpa only [strikes_start] using h.unborn
    · intro ptr key errors hmem
      rcases Multiset.mem_cons.mp hmem with rfl | hmem
      · cases hentry
      · exact before_append (h.reports ptr key errors hmem) _
  · have hmoves := moves_of_advance hnext
    have ht : t ∈ m.threads := by
      rw [hthreads]
      exact Multiset.mem_cons_self t others
    have hunborn : ∀ ptr, m.memory.keys.next ≤ ptr →
        strikes ptr (as ++ [.advance t]) = 0 := by
      intro ptr hle
      rw [strikes_advance, h.unborn ptr hle, tally_eq_zero_of_not_strikes]
      intro hstrikes
      obtain ⟨key, rfl⟩ := eq_failureFound_of_strikes hstrikes
      exact absurd (hnames _ ht ptr key rfl).1 (not_lt.mpr hle)
    refine ⟨fun k' hk' => ?_, fun ptr hle => hunborn ptr (hmoves.next_le.trans hle), ?_, ?_⟩
    · rw [strikes_advance]
      rcases hmoves.errors hk' with ⟨hptr, hzero, htally⟩ | ⟨k, hk, hptr, hfollows⟩
      · rw [hzero, htally, h.unborn _ hptr.ge]
        rfl
      · exact hfollows _ (hptr ▸ h.errors k hk)
    · intro ptr key errors hmem
      rcases Multiset.mem_add.mp hmem with hmem | hmem
      · obtain ⟨rfl, rfl⟩ := hmoves.counted hmem
        -- the guard of the report keeps the entry it counts on
        obtain ⟨k, hk, rfl⟩ := List.mem_map.mp
          (hpresent _ ht ptr (List.mem_singleton_self ptr))
        refine ⟨as ++ [.advance (.failureFound k.ptr key)], List.prefix_refl _, ?_⟩
        rw [strikes_advance, PoolMemory.errorsAt, at?_of_mem hk]
        show k.val.consecutiveErrors + 1 = _
        rw [h.errors k hk, tally_failureFound, UInt32.ofNat_add]
        rfl
      · refine before_append (h.reports ptr key errors ?_) _
        rw [hthreads]
        exact Multiset.mem_cons_of_mem hmem
    · intro k' hk' hdown
      rcases hmoves.down hk' hdown with ⟨k, hk, hptr, hbefore⟩ | ⟨key, errors, rfl, hthree⟩
      · exact before_append (hptr ▸ h.down k hk hbefore) _
      · obtain ⟨before, hprefix, hcount⟩ := h.reports k'.ptr key errors ht
        exact before_append ⟨before, hprefix, three_le_of_ofNat (hcount ▸ hthree)⟩ _

/-- **Three strikes.**  However the calls interleave, the error counter of an entry is the
number of strikes since it was last forgiven, as a `u32`; and an entry is out of rotation
only if at some moment three strikes or more had not been forgiven. -/
theorem three_strikes {configs : List DownstreamKeyConfig}
    (hrun : Runs.run PoolMachine.step (idle (KeyPool.new configs)) as = some m) :
    ∀ k ∈ m.memory.keys.cells,
      k.val.consecutiveErrors = UInt32.ofNat (strikes k.ptr as) ∧
        (k.val.healthy = false → ∃ before, before <+: as ∧ 3 ≤ strikes k.ptr before) := by
  have hstart : Counted [] (idle (KeyPool.new configs)) := by
    have hfresh : ∀ k ∈ (KeyPool.new configs).keys.cells,
        k.val.consecutiveErrors = 0 ∧ k.val.healthy = true := by
      intro k hk
      have hval := List.mem_map_of_mem (f := Cell.val) hk
      rw [KeyPool.new, SharedVec.ofList_vals] at hval
      obtain ⟨c, -, hc⟩ := List.mem_map.mp hval
      rw [← hc]
      exact ⟨rfl, rfl⟩
    refine ⟨fun k hk => (hfresh k hk).1, fun _ _ => rfl, ?_, fun k hk hdown => ?_⟩
    · exact fun ptr key errors hmem => absurd hmem (Multiset.notMem_zero _)
    · rw [(hfresh k hk).2] at hdown
      cases hdown
  have hcounted : Counted as m := by
    refine Runs.run_invariant_history hstart (fun as m a m' hbefore h hstep => ?_) hrun
    have hhealing : Healing m :=
      Runs.run_invariant (fun _ _ _ h hstep => h.step hstep) (healing_new configs) hbefore
    exact h.step hhealing.names (present_of_run hbefore) hstep
  exact fun k hk => ⟨hcounted.errors k hk, hcounted.down k hk⟩

/-- The entry that is out of rotation without an error had four strikes. -/
theorem three_strikes_forgotten :
    ∃ before, before <+: straddled ∧ 3 ≤ strikes 0 before :=
  (@three_strikes forgotten straddled [⟨"tp-1", 1⟩] (by decide +kernel)
    ⟨0, ⟨"tp-1", 1, false, 0, 0⟩⟩ (by decide)).2 rfl

end Counted

end PoolMachine

end XiaomiProxy
