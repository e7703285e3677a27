import XiaomiProxy.Proxy.PoolThreads

/-!
# The breaker under concurrent calls

Taken action by action, the breaker does not keep the invariant of `Breaker`: a recovery
task may store its two fields around the actions of a report, and then an entry is out of
rotation without an error, or in rotation with three.  What holds in every interleaving is
that such an entry is somebody's debt.

* An entry that is out of rotation is held by a report that is about to spawn a recovery
  task, or by a task that has not stored `healthy` yet.
* An entry with three errors or more is held by a report that has counted them, or by a
  task that has not stored `consecutive_errors` yet.
* No call waits for ever: whoever is blocked waits for a guard whose holder is not
  (`exists_advance`), and the calls under way end after a number of actions that is known
  beforehand (`potential_lt`).

So when all calls and tasks have ended, every entry is back in rotation, with at most two
errors (`at_rest`).  The exception is an entry whose key has no mask: the report that trips
it panics before it spawns the task.
-/

namespace XiaomiProxy

namespace PoolThread

/-! ## What an action does to the entries -/

section Keys

variable {s s' : PoolMemory} {t : PoolThread} {left : Multiset PoolThread}

/-- An action leaves the vector alone, stores into one entry, adds one, or removes some.
No store changes a key. -/
theorem Moves.keys_cases (h : Moves s t s' left) :
    s'.keys = s.keys ∨
      (∃ ptr f, (∀ e : PooledKey, (f e).key = e.key) ∧ s'.keys = s.keys.modify ptr f) ∨
      (∃ key weight, s'.keys = s.keys.push (PooledKey.fresh key weight)) ∨
      ∃ keep, s'.keys = s.keys.retain keep := by
  cases h with
  | countRequest ptr | clearErrors ptr | countError ptr | trip ptr | wake ptr
  | recovered ptr | weigh ptr | revive ptr | forgive ptr =>
      refine Or.inr (Or.inl ⟨ptr, _, ?_, rfl⟩)
      exact fun _ => rfl
  | push weight => exact Or.inr (Or.inr (Or.inl ⟨_, weight, rfl⟩))
  | retain key => exact Or.inr (Or.inr (Or.inr ⟨fun k => k.key ≠ key, rfl⟩))
  | _ => exact Or.inl rfl

/-- A pointer that was handed out leads to the same key as long as it leads anywhere. -/
theorem Moves.key_eq (h : Moves s t s' left) {k' : Cell PooledKey}
    (hk' : k' ∈ s'.keys.cells) (hptr : k'.ptr < s.keys.next) :
    ∃ k ∈ s.keys.cells, k.ptr = k'.ptr ∧ k.val.key = k'.val.key := by
  rcases h.keys_cases with heq | ⟨ptr, f, hkey, heq⟩ | ⟨key, weight, heq⟩ | ⟨keep, heq⟩ <;>
    rw [heq] at hk'
  · exact ⟨k', hk', rfl, rfl⟩
  · obtain ⟨k, hk, rfl⟩ := SharedVec.mem_modify.mp hk'
    exact ⟨k, hk, (Cell.update_ptr ptr f k).symm, (Cell.update_attr hkey ptr k).symm⟩
  · rcases List.mem_append.mp hk' with hk' | hk'
    · exact ⟨k', hk', rfl, rfl⟩
    · rw [List.mem_singleton.mp hk'] at hptr
      exact absurd hptr (lt_irrefl _)
  · exact ⟨k', List.mem_of_mem_filter hk', rfl, rfl⟩

theorem Moves.next_le (h : Moves s t s' left) : s.keys.next ≤ s'.keys.next := by
  rcases h.keys_cases with heq | ⟨ptr, f, -, heq⟩ | ⟨key, weight, heq⟩ | ⟨keep, heq⟩ <;>
    rw [heq]
  · exact le_rfl
  · exact Nat.le_succ _
  · exact le_rfl

end Keys

/-! ## Reports know their entry -/

/-- The entry a failure report is about, and the key it read there. -/
def subject : PoolThread → Option (ℕ × String)
  | .failureFound ptr key | .failureCounted ptr key _ | .failureTripped ptr key =>
      some (ptr, key)
  | _ => none

/-- The report is about an entry of the vector, or one that has left it, and the key is
that of the entry. -/
def Names (s : PoolMemory) (t : PoolThread) : Prop :=
  ∀ ptr key, t.subject = some (ptr, key) →
    ptr < s.keys.next ∧ ∀ k ∈ s.keys.cells, k.ptr = ptr → k.val.key = key

section Names

variable {s s' : PoolMemory} {t u : PoolThread} {left : Multiset PoolThread}

theorem Names.of_subject_none (h : t.subject = none) : Names s t := by
  intro ptr key hsubject
  rw [h] at hsubject
  cases hsubject

/-- No action makes a report err about its entry. -/
theorem Names.stable (h : Names s u) (hmoves : Moves s t s' left) : Names s' u := by
  intro ptr key hsubject
  obtain ⟨hlt, hkey⟩ := h ptr key hsubject
  refine ⟨hlt.trans_le hmoves.next_le, fun k' hk' hptr => ?_⟩
  obtain ⟨k, hk, hsame, heq⟩ := hmoves.key_eq hk' (hptr ▸ hlt)
  rw [← heq]
  exact hkey k hk (hsame.trans hptr)

/-- A report goes on about the entry it is about. -/
theorem Names.own (h : Names s t) (hmoves : Moves s t s' left) :
    ∀ t' ∈ left, Names s' t' := by
  have hstable := h.stable hmoves
  cases hmoves with
  | findFailure acquired free =>
      intro t' ht'
      obtain rfl := Multiset.mem_singleton.mp ht'
      cases hentry : s.entryOf? acquired.key with
      | none => exact .of_subject_none rfl
      | some k =>
          intro ptr key hsubject
          cases hsubject
          have hk : k ∈ s.keys.cells := SharedVec.mem_of_find? hentry
          refine ⟨s.keys.ptr_lt k hk, fun l hl hptr => ?_⟩
          rw [s.keys.eq_of_ptr_eq hl hk hptr]
  | countError ptr key | trip ptr key =>
      intro t' ht'
      obtain rfl := Multiset.mem_singleton.mp ht'
      exact hstable
  | findSuccess acquired =>
      intro t' ht'
      obtain rfl := Multiset.mem_singleton.mp ht'
      cases s.entryOf? acquired.key <;> exact .of_subject_none rfl
  | dropState | dropRead | recovered | dropWrite =>
      exact fun t' ht' => absurd ht' (Multiset.notMem_zero t')
  | spawn ptr =>
      intro t' ht'
      rcases Multiset.mem_cons.mp ht' with rfl | ht'
      · exact .of_subject_none rfl
      · obtain rfl := Multiset.mem_singleton.mp ht'
        exact .of_subject_none rfl
  | _ =>
      intro t' ht'
      obtain rfl := Multiset.mem_singleton.mp ht'
      exact .of_subject_none rfl

end Names

/-! ## What is owed to an entry -/

/-- The entry is there, in a state that calls for a recovery, and its key has a mask. -/
def Owed (bad : PooledKey → Prop) (ptr : ℕ) (s : PoolMemory) : Prop :=
  ∃ k ∈ s.keys.cells, k.ptr = ptr ∧ bad k.val ∧ (Config.maskKey k.val.key).isSome = true

section Owed

variable {bad : PooledKey → Prop} {ptr other : ℕ} {s : PoolMemory}
  {f : PooledKey → PooledKey}

/-- What is owed after a store into another entry was owed before. -/
theorem Owed.of_store_ne (h : Owed bad ptr (s.store other f)) (hne : other ≠ ptr) :
    Owed bad ptr s := by
  obtain ⟨k', hk', hptr, hbad, hmask⟩ := h
  obtain ⟨k, hk, rfl⟩ := SharedVec.mem_modify.mp hk'
  rw [Cell.update_ptr] at hptr
  rw [Cell.update_of_ne f (hptr.trans_ne hne.symm)] at hbad hmask
  exact ⟨k, hk, hptr, hbad, hmask⟩

/-- A store that keeps the key cannot make a debt of it that it would not make of the
entry before. -/
theorem Owed.of_store (h : Owed bad ptr (s.store other f)) (hkey : ∀ e, (f e).key = e.key)
    (hbad : ∀ e, bad (f e) → bad e) : Owed bad ptr s := by
  obtain ⟨k', hk', hptr, hbad', hmask⟩ := h
  obtain ⟨k, hk, rfl⟩ := SharedVec.mem_modify.mp hk'
  rw [Cell.update_ptr] at hptr
  rw [Cell.update_attr hkey] at hmask
  rw [Cell.update_val] at hbad'
  refine ⟨k, hk, hptr, ?_, hmask⟩
  split at hbad'
  · exact hbad k.val hbad'
  · exact hbad'

/-- A store that mends the entry leaves debts of other entries only. -/
theorem Owed.ne_of_store (h : Owed bad ptr (s.store other f)) (hmend : ∀ e, ¬ bad (f e)) :
    other ≠ ptr := by
  rintro rfl
  obtain ⟨k', hk', hptr, hbad, -⟩ := h
  obtain ⟨k, hk, rfl⟩ := SharedVec.mem_modify.mp hk'
  rw [Cell.update_ptr] at hptr
  rw [← hptr, Cell.update_self] at hbad
  exact hmend k.val hbad

/-- A new entry is owed nothing. -/
theorem Owed.of_push {key : String} {weight : UInt32}
    (hfresh : ¬ bad (PooledKey.fresh key weight)) {s' : PoolMemory}
    (hkeys : s'.keys = s.keys.push (PooledKey.fresh key weight)) (h : Owed bad ptr s') :
    Owed bad ptr s := by
  obtain ⟨k, hk, hptr, hbad, hmask⟩ := h
  rw [hkeys] at hk
  rcases List.mem_append.mp hk with hk | hk
  · exact ⟨k, hk, hptr, hbad, hmask⟩
  · rw [List.mem_singleton.mp hk] at hbad
    exact absurd hbad hfresh

/-- An entry that has left is owed nothing. -/
theorem Owed.of_retain (keep : PooledKey → Bool) {s' : PoolMemory}
    (hkeys : s'.keys = s.keys.retain keep) (h : Owed bad ptr s') : Owed bad ptr s := by
  obtain ⟨k, hk, hrest⟩ := h
  rw [hkeys] at hk
  exact ⟨k, List.mem_of_mem_filter hk, hrest⟩

/-- A report whose log line panics is not about an entry that is owed anything. -/
theorem Owed.ne_of_panicked {key : String} (h : Owed bad ptr s)
    (hnames : Names s (.failureTripped other key)) (hpanic : Config.maskKey key = none) :
    other ≠ ptr := by
  rintro rfl
  obtain ⟨k, hk, hptr, -, hmask⟩ := h
  rw [(hnames other key rfl).2 k hk hptr, hpanic] at hmask
  cases hmask

end Owed

/-! ## Back in rotation -/

/-- The thread is going to store `healthy` into the entry, or to spawn a task that is. -/
def Revives (ptr : ℕ) : PoolThread → Prop
  | .failureTripped p _ | .asleep p => p = ptr
  | _ => False

/-- **An entry out of rotation is somebody's debt.** -/
theorem Moves.revives {ptr : ℕ} {s s' : PoolMemory} {t : PoolThread}
    {left : Multiset PoolThread} (h : Moves s t s' left) (hnames : Names s t)
    (howed : Owed (fun e => e.healthy = false) ptr s') :
    (∃ t' ∈ left, Revives ptr t') ∨
      Owed (fun e => e.healthy = false) ptr s ∧ ¬ Revives ptr t := by
  cases h with
  | countRequest other | clearErrors other | countError other | weigh other
  | recovered other | forgive other =>
      exact Or.inr ⟨howed.of_store (fun _ => rfl) (fun _ hbad => hbad), id⟩
  | trip other key three =>
      -- the report that trips the entry goes on to spawn its task
      by_cases hother : other = ptr
      · exact Or.inl ⟨_, Multiset.mem_singleton_self _, hother⟩
      · exact Or.inr ⟨howed.of_store_ne hother, id⟩
  | wake other | revive other =>
      have hne := howed.ne_of_store fun _ => Bool.noConfusion
      exact Or.inr ⟨howed.of_store_ne hne, by first | exact hne | exact id⟩
  | panicked other hpanic => exact Or.inr ⟨howed, howed.ne_of_panicked hnames hpanic⟩
  | spawn other hmask =>
      by_cases hother : other = ptr
      · exact Or.inl ⟨.asleep other, by simp, hother⟩
      · exact Or.inr ⟨howed, hother⟩
  | push weight => exact Or.inr ⟨howed.of_push Bool.noConfusion rfl, id⟩
  | retain key => exact Or.inr ⟨howed.of_retain (fun k => k.key ≠ key) rfl, id⟩
  | _ => exact Or.inr ⟨howed, id⟩

/-! ## Errors forgotten -/

/-- The thread is going to store zero into the error counter of the entry, or to spawn a
task that is. -/
def Clears (ptr : ℕ) : PoolThread → Prop
  | .failureCounted p _ errors => p = ptr ∧ 3 ≤ errors
  | .failureTripped p _ | .asleep p | .revived p => p = ptr
  | _ => False

/-- **Three errors are somebody's debt.** -/
theorem Moves.clears {ptr : ℕ} {s s' : PoolMemory} {t : PoolThread}
    {left : Multiset PoolThread} (h : Moves s t s' left) (hnames : Names s t)
    (howed : Owed (fun e => 3 ≤ e.consecutiveErrors) ptr s') :
    (∃ t' ∈ left, Clears ptr t') ∨
      Owed (fun e => 3 ≤ e.consecutiveErrors) ptr s ∧ ¬ Clears ptr t := by
  have hcleared : ∀ e : PooledKey, ¬ 3 ≤ (PooledKey.clearErrors e).consecutiveErrors :=
    fun _ => (by decide : ¬ (3 : UInt32) ≤ 0)
  cases h with
  | countRequest other | weigh other | revive other =>
      exact Or.inr ⟨howed.of_store (fun _ => rfl) (fun _ hbad => hbad), id⟩
  | countError other key =>
      by_cases hother : other = ptr
      · -- the report loaded the count that it left behind
        subst hother
        obtain ⟨k', hk', hptr, hthree, -⟩ := howed
        obtain ⟨k, hk, rfl⟩ := SharedVec.mem_modify.mp hk'
        rw [Cell.update_ptr] at hptr
        rw [← hptr, Cell.update_self] at hthree
        refine Or.inl ⟨_, Multiset.mem_singleton_self _, rfl, ?_⟩
        rw [← hptr, PoolMemory.errorsAt, PoolMachine.at?_of_mem hk]
        exact hthree
      · exact Or.inr ⟨howed.of_store_ne hother, id⟩
  | trip other key three =>
      by_cases hother : other = ptr
      · exact Or.inl ⟨_, Multiset.mem_singleton_self _, hother⟩
      · exact Or.inr ⟨howed.of_store_ne hother, fun hclears => hother hclears.1⟩
  | tolerate other key fewer => exact Or.inr ⟨howed, fun hclears => fewer hclears.2⟩
  | panicked other hpanic => exact Or.inr ⟨howed, howed.ne_of_panicked hnames hpanic⟩
  | spawn other hmask =>
      by_cases hother : other = ptr
      · exact Or.inl ⟨.asleep other, by simp, hother⟩
      · exact Or.inr ⟨howed, hother⟩
  | wake other =>
      -- the task goes on to its second store
      by_cases hother : other = ptr
      · exact Or.inl ⟨_, Multiset.mem_singleton_self _, hother⟩
      · exact Or.inr ⟨howed.of_store_ne hother, hother⟩
  | recovered other =>
      have hne := howed.ne_of_store hcleared
      exact Or.inr ⟨howed.of_store_ne hne, hne⟩
  | clearErrors other | forgive other =>
      have hne := howed.ne_of_store hcleared
      exact Or.inr ⟨howed.of_store_ne hne, id⟩
  | push weight =>
      exact Or.inr ⟨howed.of_push (by decide : ¬ (3 : UInt32) ≤ 0) rfl, id⟩
  | retain key => exact Or.inr ⟨howed.of_retain (fun k => k.key ≠ key) rfl, id⟩
  | _ => exact Or.inr ⟨howed, id⟩

/-! ## Waiting -/

/-- The order in which guards are taken: the mutex of the round robin, then the vector. -/
def rank (t : PoolThread) : ℕ :=
  if t.holdsRead ≠ 0 ∨ t.holdsWrite ≠ 0 then 2 else if t.holdsState ≠ 0 then 1 else 0

/-- The actions left to a thread and to the task it may spawn, when a vector has at most
`room` entries. -/
def effort (room : ℕ) : PoolThread → ℕ
  | .acquireKey => 6 + room
  | .acquireRead => 5 + room
  | .acquireFilter _ rest => 4 + rest.length
  | .acquireCount _ _ => 3
  | .acquireDropKeys _ => 2
  | .acquireDropState _ => 1
  | .reportSuccess _ => 3
  | .successFound _ => 2
  | .reportFailure _ => 7
  | .failureFound _ _ => 6
  | .failureCounted _ _ _ => 5
  | .failureTripped _ _ => 4
  | .dropRead => 1
  | .asleep _ => 2
  | .revived _ => 1
  | .addKey _ _ => 5
  | .addFound _ _ => 4
  | .addWeighed _ => 3
  | .addRevived _ => 2
  | .removeKey _ => 2
  | .dropWrite => 1

/-- The thread may still add an entry. -/
def adds : PoolThread → ℕ
  | .addKey _ _ => 1
  | _ => 0

theorem effort_mono {room room' : ℕ} (h : room ≤ room') (t : PoolThread) :
    effort room t ≤ effort room' t := by
  cases t <;> simp [effort, h]

section Effort

variable {s s' : PoolMemory} {t : PoolThread} {left : Multiset PoolThread}

theorem effort_found_le {next : Cell PooledKey → PoolThread} {room bound : ℕ}
    (hnext : ∀ k, effort room (next k) ≤ bound) (hbound : 1 ≤ bound)
    (sought : Option (Cell PooledKey)) : effort room (found sought next) ≤ bound := by
  cases sought with
  | none => exact hbound
  | some k => exact hnext k

/-- Every action is one less. -/
theorem Moves.effort_lt (h : Moves s t s' left) {room : ℕ}
    (hroom : s.keys.cells.length ≤ room) : (left.map (effort room)).sum < effort room t := by
  cases h with
  | readEntries =>
      rw [Multiset.map_singleton, Multiset.sum_singleton, effort, effort, List.length_map]
      omega
  | findSuccess acquired =>
      rw [Multiset.map_singleton, Multiset.sum_singleton]
      have hle : effort room (found (s.entryOf? acquired.key) _) ≤ 2 :=
        effort_found_le (fun k => le_refl (effort room (.successFound k.ptr))) (by decide) _
      exact Nat.lt_succ_of_le hle
  | findFailure acquired =>
      rw [Multiset.map_singleton, Multiset.sum_singleton]
      have hle : effort room (found (s.entryOf? acquired.key) _) ≤ 6 :=
        effort_found_le (fun k => le_refl (effort room (.failureFound k.ptr k.val.key)))
          (by decide) _
      exact Nat.lt_succ_of_le hle
  | _ => simp [effort]

/-- No action makes room. -/
theorem Moves.room_le (h : Moves s t s' left) :
    s'.keys.cells.length + (left.map adds).sum ≤ s.keys.cells.length + adds t := by
  cases h with
  | findSuccess acquired =>
      rw [Multiset.map_singleton, Multiset.sum_singleton, share_found adds]
      · rfl
      · exact fun _ => rfl
  | findFailure acquired =>
      rw [Multiset.map_singleton, Multiset.sum_singleton, share_found adds]
      · rfl
      · exact fun _ => rfl
  | retain key => simpa [adds] using List.length_filter_le _ _
  | _ => simp [adds, PoolMemory.store]

end Effort

/-- A blocked thread waits for the mutex with nothing in hand, or for the vector with no
guard of it in hand. -/
theorem blocked_cases {s : PoolMemory} {t : PoolThread} (h : advance s t = none) :
    (rank t = 0 ∧ s.stateLocked = true) ∨
      rank t ≤ 1 ∧ (s.writing = true ∨ s.readers ≠ 0) := by
  cases t with
  | acquireKey =>
      simp only [advance, ite_eq_left_iff, reduceCtorEq, imp_false, not_not] at h
      exact Or.inl ⟨rfl, h⟩
  | acquireRead =>
      simp only [advance, ite_eq_left_iff, reduceCtorEq, imp_false, not_not] at h
      exact Or.inr ⟨le_rfl, Or.inl h⟩
  | reportSuccess | reportFailure =>
      simp only [advance, ite_eq_left_iff, reduceCtorEq, imp_false, not_not] at h
      exact Or.inr ⟨Nat.zero_le 1, Or.inl h⟩
  | addKey key weight =>
      simp only [advance] at h
      split at h
      · rename_i hheld
        exact Or.inr ⟨Nat.zero_le 1, by simpa using hheld⟩
      · split at h <;> cases h
  | removeKey key =>
      simp only [advance, ite_eq_left_iff, reduceCtorEq, imp_false, not_not] at h
      exact Or.inr ⟨Nat.zero_le 1, by simpa using h⟩
  | acquireFilter healthy rest =>
      cases rest with
      | cons ptr rest => cases h
      | nil =>
          simp only [advance] at h
          split at h <;> cases h
  | failureCounted ptr key errors =>
      simp only [advance] at h
      split at h <;> cases h
  | failureTripped ptr key =>
      simp only [advance] at h
      split at h <;> cases h
  | _ => cases h

end PoolThread

namespace PoolMachine

open PoolThread

/-- The most entries the vector can come to have before another call starts. -/
def room (m : PoolMachine) : ℕ := m.memory.keys.cells.length + m.held adds

/-- The actions left to the calls and tasks under way. -/
def potential (m : PoolMachine) : ℕ := m.held (effort m.room)

section Steps

variable {m m' : PoolMachine} {a : Threads.Action PoolThread}

/-- Every action of a thread leaves fewer. -/
theorem potential_lt (m : PoolMachine) (t : PoolThread) (m' : PoolMachine)
    (h : step m (.advance t) = some m') : potential m' < potential m := by
  obtain ⟨others, memory, left, hthreads, hnext, rfl⟩ := Threads.step_advance.mp h
  have hmoves := moves_of_advance hnext
  have hroom : room ⟨memory, left + others⟩ ≤ room m := by
    have hle := hmoves.room_le
    rw [room, room, Threads.held, Threads.held, hthreads, Multiset.map_add,
      Multiset.sum_add, Multiset.map_cons, Multiset.sum_cons]
    show memory.keys.cells.length + _ ≤ _
    omega
  have heffort := hmoves.effort_lt (Nat.le_add_right m.memory.keys.cells.length (m.held adds))
  have hmono : ((left + others).map (effort (room ⟨memory, left + others⟩))).sum
      ≤ ((left + others).map (effort (room m))).sum :=
    Multiset.sum_map_le_sum_map _ _ fun t _ => effort_mono hroom t
  calc potential ⟨memory, left + others⟩
      ≤ ((left + others).map (effort (room m))).sum := hmono
    _ = (left.map (effort (room m))).sum + (others.map (effort (room m))).sum := by
        rw [Multiset.map_add, Multiset.sum_add]
    _ < effort (room m) t + (others.map (effort (room m))).sum :=
        Nat.add_lt_add_right heffort _
    _ = potential m := by
        rw [potential, Threads.held, hthreads, Multiset.map_cons, Multiset.sum_cons]

/-- **No deadlock.**  As long as a call or a task is under way, one of them can take its
next action. -/
theorem exists_advance (h : Guarded m) (hsome : m.threads ≠ 0) :
    ∃ t m', step m (.advance t) = some m' := by
  refine Threads.exists_advance_of_rank rank (fun t _ hblocked => ?_) hsome
  have hholder : ∀ share : PoolThread → ℕ, m.held share ≠ 0 →
      ∃ t' ∈ m.threads, share t' ≠ 0 := fun _ => Threads.exists_of_held_ne_zero
  rcases blocked_cases hblocked with ⟨hrank, hlocked⟩ | ⟨hrank, hwriting | hreaders⟩
  · obtain ⟨t', hmem, hholds⟩ := hholder holdsState (by rw [← h.state, hlocked]; decide)
    refine ⟨t', hmem, ?_⟩
    rw [hrank, rank, if_pos hholds]
    split <;> decide
  · obtain ⟨t', hmem, hholds⟩ := hholder holdsWrite (by rw [← h.write, hwriting]; decide)
    refine ⟨t', hmem, Nat.lt_of_le_of_lt hrank ?_⟩
    rw [rank, if_pos (Or.inr hholds)]
    decide
  · obtain ⟨t', hmem, hholds⟩ := hholder holdsRead (by rwa [← h.read])
    refine ⟨t', hmem, Nat.lt_of_le_of_lt hrank ?_⟩
    rw [rank, if_pos (Or.inl hholds)]
    decide

/-- The invariant of the breaker: of every entry that is out of rotation, or has three
errors, some thread is in debt. -/
structure Healing (m : PoolMachine) : Prop where
  names : Threads.Asserts Names m
  revives : ∀ ptr, Threads.Backed (Owed (fun e => e.healthy = false) ptr) (Revives ptr) m
  clears : ∀ ptr,
    Threads.Backed (Owed (fun e => 3 ≤ e.consecutiveErrors) ptr) (Clears ptr) m

theorem Healing.step (h : Healing m) (hstep : step m a = some m') : Healing m' where
  names := Threads.assertions_step (J := fun _ => True)
    (fun _ t hentry => .of_subject_none (by cases t <;> first | rfl | cases hentry))
    (fun _ _ _ _ hnext hnames => hnames.own (moves_of_advance hnext))
    (fun _ _ _ _ _ _ _ _ _ hnext hnames => hnames.stable (moves_of_advance hnext))
    trivial h.names hstep
  revives ptr := Threads.debt_step
    (fun _ _ _ _ hnext hnames => (moves_of_advance hnext).revives hnames)
    h.names (h.revives ptr) hstep
  clears ptr := Threads.debt_step
    (fun _ _ _ _ hnext hnames => (moves_of_advance hnext).clears hnames)
    h.names (h.clears ptr) hstep

end Steps

/-! ## Runs -/

section Runs

variable {configs : List DownstreamKeyConfig} {as : List (Threads.Action PoolThread)}
  {m : PoolMachine}

theorem guarded_of_run {p : KeyPool} (hrun : Runs.run step (idle p) as = some m) :
    Guarded m :=
  Runs.run_invariant (fun _ _ _ h hstep => h.step hstep) (guarded_idle p) hrun

/-- A new pool owes nothing. -/
theorem healing_new (configs : List DownstreamKeyConfig) :
    Healing (idle (KeyPool.new configs)) := by
  have hnothing : ∀ bad : PooledKey → Prop, (∀ key weight, ¬ bad (.fresh key weight)) →
      ∀ ptr, ¬ Owed bad ptr (idle (KeyPool.new configs)).memory := by
    rintro bad hfresh ptr ⟨k, hk, -, hbad, -⟩
    have hval : k.val ∈ (KeyPool.new configs).keys.cells.map Cell.val :=
      List.mem_map_of_mem hk
    rw [KeyPool.new, SharedVec.ofList_vals] at hval
    obtain ⟨c, -, hc⟩ := List.mem_map.mp hval
    rw [← hc] at hbad
    exact hfresh c.key c.weight hbad
  refine ⟨fun t ht => absurd ht (Multiset.notMem_zero t), fun ptr howed => ?_,
    fun ptr howed => ?_⟩
  · exact absurd howed (hnothing _ (fun _ _ => Bool.noConfusion) ptr)
  · exact absurd howed (hnothing _ (fun _ _ => (by decide : ¬ (3 : UInt32) ≤ 0)) ptr)

/-- **The pool never locks up.**  However the calls interleave, the mutex and the write
guard are held once at most, and nobody reads while the vector is written; one of the
calls and tasks under way can always go on; and together they take no more actions than
`potential` says, whatever the order. -/
theorem never_stuck (hrun : Runs.run step (idle (KeyPool.new configs)) as = some m) :
    (m.held holdsState ≤ 1 ∧ m.held holdsWrite ≤ 1 ∧
        (m.held holdsWrite = 1 → m.held holdsRead = 0)) ∧
      (m.threads ≠ 0 → ∃ t m', step m (.advance t) = some m') ∧
      ∀ (ts : List PoolThread) (m' : PoolMachine),
        Runs.run step m (ts.map .advance) = some m' → ts.length ≤ potential m := by
  have hguarded := guarded_of_run hrun
  refine ⟨⟨?_, ?_, fun hwrite => ?_⟩, exists_advance hguarded, fun ts m' hts => ?_⟩
  · rw [← hguarded.state]
    exact Bool.toNat_le _
  · rw [← hguarded.write]
    exact Bool.toNat_le _
  · rw [← hguarded.read]
    rw [← hguarded.write] at hwrite
    exact hguarded.exclusive (by simpa using hwrite)
  · have hle := Threads.length_le_of_advances potential_lt hts
    exact (Nat.le_add_right _ _).trans hle

/-- Four failures and a recovery task whose two stores lie around the fourth. -/
def straddled : List (Threads.Action PoolThread) :=
  [.start (.reportFailure ⟨"tp-1"⟩), .start (.reportFailure ⟨"tp-1"⟩),
    .start (.reportFailure ⟨"tp-1"⟩), .advance (.reportFailure ⟨"tp-1"⟩),
    .advance (.reportFailure ⟨"tp-1"⟩), .advance (.reportFailure ⟨"tp-1"⟩),
    .advance (.failureFound 0 "tp-1"), .advance (.failureFound 0 "tp-1"),
    .advance (.failureFound 0 "tp-1"), .advance (.failureCounted 0 "tp-1" 1),
    .advance (.failureCounted 0 "tp-1" 3), .advance (.failureCounted 0 "tp-1" 2),
    .advance (.failureTripped 0 "tp-1"), .advance .dropRead, .advance .dropRead,
    .advance .dropRead, .advance (.asleep 0), .start (.reportFailure ⟨"tp-1"⟩),
    .advance (.reportFailure ⟨"tp-1"⟩), .advance (.failureFound 0 "tp-1"),
    .advance (.failureCounted 0 "tp-1" 4), .advance (.revived 0),
    .advance (.failureTripped 0 "tp-1"), .advance .dropRead]

/-- An entry out of rotation without an error, and its second task. -/
def forgotten : PoolMachine where
  memory := {
    keys := SharedVec.ofList [⟨"tp-1", 1, false, 0, 0⟩]
    state := { roundRobinIndex := 0 }
    stateLocked := false
    readers := 0
    writing := false }
  threads := {.asleep 0}

theorem never_stuck_forgotten : ∃ t m', step forgotten (.advance t) = some m' :=
  (@never_stuck [⟨"tp-1", 1⟩] straddled forgotten (by decide +kernel)).2.1 (by decide)

/-- **Every entry comes back.**  However the calls interleave, an entry out of rotation is
held by a thread that will put it back, and one with three errors by a thread that will
forget them; the calls and tasks under way can be brought to their end; and once none is
left, every entry is in rotation, with at most two errors.  All of this is about entries
whose key has a mask. -/
theorem heals (hrun : Runs.run step (idle (KeyPool.new configs)) as = some m) :
    (∀ k ∈ m.memory.keys.cells, (Config.maskKey k.val.key).isSome = true →
        (k.val.healthy = false → ∃ t ∈ m.threads, Revives k.ptr t) ∧
          (3 ≤ k.val.consecutiveErrors → ∃ t ∈ m.threads, Clears k.ptr t)) ∧
      (∃ (ts : List PoolThread) (m' : PoolMachine),
        Runs.run step m (ts.map .advance) = some m' ∧ m'.threads = 0) ∧
      (m.threads = 0 → ∀ k ∈ m.memory.keys.cells,
        (Config.maskKey k.val.key).isSome = true →
          k.val.healthy = true ∧ k.val.consecutiveErrors < 3) := by
  have hhealing : Healing m :=
    Runs.run_invariant (fun _ _ _ h hstep => h.step hstep) (healing_new configs) hrun
  have hheld : ∀ k ∈ m.memory.keys.cells, (Config.maskKey k.val.key).isSome = true →
      (k.val.healthy = false → ∃ t ∈ m.threads, Revives k.ptr t) ∧
        (3 ≤ k.val.consecutiveErrors → ∃ t ∈ m.threads, Clears k.ptr t) :=
    fun k hk hmask => ⟨fun hdown => hhealing.revives k.ptr ⟨k, hk, rfl, hdown, hmask⟩,
      fun hthree => hhealing.clears k.ptr ⟨k, hk, rfl, hthree, hmask⟩⟩
  refine ⟨hheld, ?_, fun hrest k hk hmask => ?_⟩
  · exact Threads.exists_run_to_rest (J := Guarded) potential_lt
      (fun _ _ _ h hstep => h.step hstep) (fun _ => exists_advance) (guarded_of_run hrun)
  · have hnobody : ∀ Q : PoolThread → Prop, ¬ ∃ t ∈ m.threads, Q t := by
      rintro Q ⟨t, ht, -⟩
      rw [hrest] at ht
      exact Multiset.notMem_zero t ht
    refine ⟨?_, ?_⟩
    · by_contra hdown
      exact hnobody _ ((hheld k hk hmask).1 (Bool.eq_false_of_not_eq_true hdown))
    · by_contra hthree
      exact hnobody _ ((hheld k hk hmask).2 (UInt32.not_lt.mp hthree))

theorem heals_forgotten : ∃ t ∈ forgotten.threads, Revives 0 t :=
  ((@heals [⟨"tp-1", 1⟩] straddled forgotten (by decide +kernel)).1
    ⟨0, ⟨"tp-1", 1, false, 0, 0⟩⟩ (by decide) (by decide)).1 rfl

end Runs

end PoolMachine

end XiaomiProxy
