import XiaomiProxy.Lib.Threads
import XiaomiProxy.Proxy.PoolRuns

/-!
# The key pool, action by action

The methods of `KeyPool` on a runtime with several workers.  A call is a thread that
takes one lock or makes one access to an atomic field at a time, and any other thread may
act in between.  The memory is the vector of the entries, the state of the round robin
and the two locks that guard them: the `Mutex` of the state, and the `RwLock` of the
vector, which counts its read guards.

* The atomic fields of an entry are accessed one by one under a read guard, and by a
  recovery task under no guard at all.
* The vector changes, and a weight is stored, under the write guard only.
* `acquire_key` holds the mutex from its first action to its last, and never waits for
  anything else than the vector.

The accesses of the source are `Relaxed`.  Here they take effect in one order, the
order of the run.

`Moves` lists what an action can do.  `exists_run_of_step` says that the operations of
`PoolRuns`, which happen at once, are among the runs of this machine: those in which no
two calls overlap.
-/

namespace XiaomiProxy

/-- What the calls on a pool share. -/
structure PoolMemory where
  keys : SharedVec PooledKey
  state : PoolState
  stateLocked : Bool
  readers : ℕ
  writing : Bool
  deriving DecidableEq

/-- Where a call, or a recovery task, stands: before which of its actions. -/
inductive PoolThread where
  -- `acquire_key`: take the mutex, take the read guard, load the flags of the entries
  -- one by one, select, count the request, drop the guards
  | acquireKey
  | acquireRead
  | acquireFilter (healthy rest : List ℕ)
  | acquireCount (ptr : ℕ) (key : String)
  | acquireDropKeys (result : Except AppError AcquiredKey)
  | acquireDropState (result : Except AppError AcquiredKey)
  -- `report_success`
  | reportSuccess (acquired : AcquiredKey)
  | successFound (ptr : ℕ)
  -- `report_failure`
  | reportFailure (acquired : AcquiredKey)
  | failureFound (ptr : ℕ) (key : String)
  | failureCounted (ptr : ℕ) (key : String) (errors : UInt32)
  | failureTripped (ptr : ℕ) (key : String)
  | dropRead
  -- the recovery task: asleep, and between its two stores
  | asleep (ptr : ℕ)
  | revived (ptr : ℕ)
  -- `add_key` and `remove_key`
  | addKey (key : String) (weight : UInt32)
  | addFound (ptr : ℕ) (weight : UInt32)
  | addWeighed (ptr : ℕ)
  | addRevived (ptr : ℕ)
  | removeKey (key : String)
  | dropWrite
  deriving DecidableEq

namespace PoolThread

/-- The calls, which may start at any time. -/
def entry : PoolThread → Bool
  | .acquireKey | .reportSuccess _ | .reportFailure _ | .addKey _ _ | .removeKey _ => true
  | _ => false

/-- The thread holds the mutex of the round robin. -/
def holdsState : PoolThread → ℕ
  | .acquireRead | .acquireFilter _ _ | .acquireCount _ _ | .acquireDropKeys _
  | .acquireDropState _ => 1
  | _ => 0

/-- The thread holds a read guard of the vector. -/
def holdsRead : PoolThread → ℕ
  | .acquireFilter _ _ | .acquireCount _ _ | .acquireDropKeys _ | .successFound _
  | .failureFound _ _ | .failureCounted _ _ _ | .failureTripped _ _ | .dropRead => 1
  | _ => 0

/-- The thread holds the write guard of the vector. -/
def holdsWrite : PoolThread → ℕ
  | .addFound _ _ | .addWeighed _ | .addRevived _ | .dropWrite => 1
  | _ => 0

end PoolThread

namespace PooledKey

/-- The first store of a recovery. -/
def untrip (k : PooledKey) : PooledKey := { k with healthy := true }

/-- The first store of an addition to an entry that is there. -/
def setWeight (weight : UInt32) (k : PooledKey) : PooledKey := { k with weight }

end PooledKey

namespace KeyPool

/-- The selection of `acquire_key` among the entries it found healthy. -/
def selectAmong (index : UInt64) :
    List (Cell PooledKey) → Except AppError (Cell PooledKey)
  | [] => .error .noKeysAvailable
  | first :: rest =>
      let total := totalWeight (first :: rest)
      if total = 0 then .error .noKeysAvailable
      else .ok ((scan (index % total.toUInt64) 0 (first :: rest)).getD first)

theorem selectKey_eq (p : KeyPool) :
    p.selectKey = selectAmong p.state.roundRobinIndex p.healthyKeys := by
  rw [selectKey]
  cases p.healthyKeys <;> rfl

end KeyPool

namespace PoolMemory

variable (s : PoolMemory)

/-- The entry a pointer leads to. -/
def at? (ptr : ℕ) : Option (Cell PooledKey) := s.keys.cells.find? fun k => k.ptr = ptr

/-- The first entry with the key. -/
def entryOf? (key : String) : Option (Cell PooledKey) := s.keys.find? fun k => k.key = key

/-- A load of `healthy`. -/
def healthyAt (ptr : ℕ) : Bool := (s.at? ptr).any fun k => k.val.healthy

/-- A load of `consecutive_errors`. -/
def errorsAt (ptr : ℕ) : UInt32 := (s.at? ptr).elim 0 fun k => k.val.consecutiveErrors

/-- An access that changes an entry. -/
def store (ptr : ℕ) (f : PooledKey → PooledKey) : PoolMemory :=
  { s with keys := s.keys.modify ptr f }

end PoolMemory

namespace PoolThread

/-- A report goes on with the entry it found, if there is one. -/
def found (sought : Option (Cell PooledKey)) (next : Cell PooledKey → PoolThread) :
    PoolThread :=
  sought.elim .dropRead next

/-- The next action of a thread, or `none` while it waits for a lock. -/
def advance (s : PoolMemory) : PoolThread → Option (PoolMemory × Multiset PoolThread)
  | .acquireKey =>
      if s.stateLocked then none
      else some ({ s with stateLocked := true }, {.acquireRead})
  | .acquireRead =>
      if s.writing then none
      else
        some ({ s with readers := s.readers + 1 },
          {.acquireFilter [] (s.keys.cells.map Cell.ptr)})
  | .acquireFilter healthy (ptr :: rest) =>
      some (s, {.acquireFilter (if s.healthyAt ptr then healthy ++ [ptr] else healthy) rest})
  | .acquireFilter healthy [] =>
      -- under both guards, nobody else reads the index or stores a weight
      let healthyKeys := healthy.filterMap s.at?
      match KeyPool.selectAmong s.state.roundRobinIndex healthyKeys with
      | .error e => some (s, {.acquireDropKeys (.error e)})
      | .ok k =>
          let total := KeyPool.totalWeight healthyKeys
          some ({ s with state := { roundRobinIndex :=
              (s.state.roundRobinIndex + 1) % total.toUInt64 } },
            {.acquireCount k.ptr k.val.key})
  | .acquireCount ptr key =>
      some (s.store ptr PooledKey.countRequest, {.acquireDropKeys (.ok { key })})
  | .acquireDropKeys result =>
      some ({ s with readers := s.readers - 1 }, {.acquireDropState result})
  | .acquireDropState _ => some ({ s with stateLocked := false }, 0)
  | .reportSuccess acquired =>
      if s.writing then none
      else
        some ({ s with readers := s.readers + 1 },
          {found (s.entryOf? acquired.key) fun k => .successFound k.ptr})
  | .successFound ptr => some (s.store ptr PooledKey.clearErrors, {.dropRead})
  | .reportFailure acquired =>
      if s.writing then none
      else
        some ({ s with readers := s.readers + 1 },
          {found (s.entryOf? acquired.key) fun k => .failureFound k.ptr k.val.key})
  | .failureFound ptr key =>
      -- `fetch_add` loads and stores in one action
      some (s.store ptr PooledKey.countError,
        {.failureCounted ptr key (s.errorsAt ptr + 1)})
  | .failureCounted ptr key errors =>
      if 3 ≤ errors then some (s.store ptr PooledKey.trip, {.failureTripped ptr key})
      else some (s, {.dropRead})
  | .failureTripped ptr key =>
      match Config.maskKey key with
      -- the log line panics, which drops the guard
      | none => some (s, {.dropRead})
      | some _ => some (s, {.dropRead, .asleep ptr})
  | .dropRead => some ({ s with readers := s.readers - 1 }, 0)
  | .asleep ptr => some (s.store ptr PooledKey.untrip, {.revived ptr})
  | .revived ptr => some (s.store ptr PooledKey.clearErrors, 0)
  | .addKey key weight =>
      if s.writing || s.readers ≠ 0 then none
      else
        match s.entryOf? key with
        | some existing => some ({ s with writing := true }, {.addFound existing.ptr weight})
        | none =>
            some ({ s with
              writing := true
              keys := s.keys.push (PooledKey.fresh key weight) }, {.dropWrite})
  | .addFound ptr weight =>
      some (s.store ptr (PooledKey.setWeight weight), {.addWeighed ptr})
  | .addWeighed ptr => some (s.store ptr PooledKey.untrip, {.addRevived ptr})
  | .addRevived ptr => some (s.store ptr PooledKey.clearErrors, {.dropWrite})
  | .removeKey key =>
      if s.writing || s.readers ≠ 0 then none
      else
        some ({ s with
          writing := true
          keys := s.keys.retain fun k => k.key ≠ key }, {.dropWrite})
  | .dropWrite => some ({ s with writing := false }, 0)

/-! ## What an action can do -/

/-- The actions: of which thread, on which memory, with what memory and what threads
after it. -/
inductive Moves (s : PoolMemory) :
    PoolThread → PoolMemory → Multiset PoolThread → Prop
  | lockState (free : s.stateLocked = false) :
      Moves s .acquireKey { s with stateLocked := true } {.acquireRead}
  | readEntries (free : s.writing = false) :
      Moves s .acquireRead { s with readers := s.readers + 1 }
        {.acquireFilter [] (s.keys.cells.map Cell.ptr)}
  | load (healthy rest : List ℕ) (ptr : ℕ) :
      Moves s (.acquireFilter healthy (ptr :: rest)) s
        {.acquireFilter (if s.healthyAt ptr then healthy ++ [ptr] else healthy) rest}
  | refuse {healthy : List ℕ} {e : AppError}
      (selected : KeyPool.selectAmong s.state.roundRobinIndex
        (healthy.filterMap s.at?) = .error e) :
      Moves s (.acquireFilter healthy []) s {.acquireDropKeys (.error e)}
  | select {healthy : List ℕ} {k : Cell PooledKey}
      (selected : KeyPool.selectAmong s.state.roundRobinIndex
        (healthy.filterMap s.at?) = .ok k) :
      Moves s (.acquireFilter healthy [])
        { s with state := { roundRobinIndex := (s.state.roundRobinIndex + 1)
            % (KeyPool.totalWeight (healthy.filterMap s.at?)).toUInt64 } }
        {.acquireCount k.ptr k.val.key}
  | countRequest (ptr : ℕ) (key : String) :
      Moves s (.acquireCount ptr key) (s.store ptr PooledKey.countRequest)
        {.acquireDropKeys (.ok { key })}
  | dropKeys (result : Except AppError AcquiredKey) :
      Moves s (.acquireDropKeys result) { s with readers := s.readers - 1 }
        {.acquireDropState result}
  | dropState (result : Except AppError AcquiredKey) :
      Moves s (.acquireDropState result) { s with stateLocked := false } 0
  | findSuccess (acquired : AcquiredKey) (free : s.writing = false) :
      Moves s (.reportSuccess acquired) { s with readers := s.readers + 1 }
        {found (s.entryOf? acquired.key) fun k => .successFound k.ptr}
  | clearErrors (ptr : ℕ) :
      Moves s (.successFound ptr) (s.store ptr PooledKey.clearErrors) {.dropRead}
  | findFailure (acquired : AcquiredKey) (free : s.writing = false) :
      Moves s (.reportFailure acquired) { s with readers := s.readers + 1 }
        {found (s.entryOf? acquired.key) fun k => .failureFound k.ptr k.val.key}
  | countError (ptr : ℕ) (key : String) :
      Moves s (.failureFound ptr key) (s.store ptr PooledKey.countError)
        {.failureCounted ptr key (s.errorsAt ptr + 1)}
  | trip (ptr : ℕ) (key : String) {errors : UInt32} (three : 3 ≤ errors) :
      Moves s (.failureCounted ptr key errors) (s.store ptr PooledKey.trip)
        {.failureTripped ptr key}
  | tolerate (ptr : ℕ) (key : String) {errors : UInt32} (fewer : ¬ 3 ≤ errors) :
      Moves s (.failureCounted ptr key errors) s {.dropRead}
  | panicked (ptr : ℕ) {key : String} (unmasked : Config.maskKey key = none) :
      Moves s (.failureTripped ptr key) s {.dropRead}
  | spawn (ptr : ℕ) {key masked : String} (hmask : Config.maskKey key = some masked) :
      Moves s (.failureTripped ptr key) s {.dropRead, .asleep ptr}
  | dropRead : Moves s .dropRead { s with readers := s.readers - 1 } 0
  | wake (ptr : ℕ) : Moves s (.asleep ptr) (s.store ptr PooledKey.untrip) {.revived ptr}
  | recovered (ptr : ℕ) : Moves s (.revived ptr) (s.store ptr PooledKey.clearErrors) 0
  | findExisting {key : String} (weight : UInt32) {existing : Cell PooledKey}
      (free : s.writing = false) (unread : s.readers = 0)
      (entry : s.entryOf? key = some existing) :
      Moves s (.addKey key weight) { s with writing := true }
        {.addFound existing.ptr weight}
  | push {key : String} (weight : UInt32) (free : s.writing = false)
      (unread : s.readers = 0) (entry : s.entryOf? key = none) :
      Moves s (.addKey key weight) { s with
        writing := true
        keys := s.keys.push (PooledKey.fresh key weight) } {.dropWrite}
  | weigh (ptr : ℕ) (weight : UInt32) :
      Moves s (.addFound ptr weight) (s.store ptr (PooledKey.setWeight weight))
        {.addWeighed ptr}
  | revive (ptr : ℕ) :
      Moves s (.addWeighed ptr) (s.store ptr PooledKey.untrip) {.addRevived ptr}
  | forgive (ptr : ℕ) :
      Moves s (.addRevived ptr) (s.store ptr PooledKey.clearErrors) {.dropWrite}
  | retain (key : String) (free : s.writing = false) (unread : s.readers = 0) :
      Moves s (.removeKey key) { s with
        writing := true
        keys := s.keys.retain fun k => k.key ≠ key } {.dropWrite}
  | dropWrite : Moves s .dropWrite { s with writing := false } 0

theorem advance_refuse {s : PoolMemory} {healthy : List ℕ} {e : AppError}
    (h : KeyPool.selectAmong s.state.roundRobinIndex (healthy.filterMap s.at?) = .error e) :
    advance s (.acquireFilter healthy []) = some (s, {.acquireDropKeys (.error e)}) := by
  simp only [advance, h]

theorem advance_select {s : PoolMemory} {healthy : List ℕ} {k : Cell PooledKey}
    (h : KeyPool.selectAmong s.state.roundRobinIndex (healthy.filterMap s.at?) = .ok k) :
    advance s (.acquireFilter healthy [])
      = some ({ s with state := { roundRobinIndex := (s.state.roundRobinIndex + 1)
          % (KeyPool.totalWeight (healthy.filterMap s.at?)).toUInt64 } },
        {.acquireCount k.ptr k.val.key}) := by
  simp only [advance, h]

theorem advance_panicked (s : PoolMemory) (ptr : ℕ) {key : String}
    (h : Config.maskKey key = none) :
    advance s (.failureTripped ptr key) = some (s, {.dropRead}) := by
  simp only [advance, h]

theorem advance_spawn (s : PoolMemory) (ptr : ℕ) {key masked : String}
    (h : Config.maskKey key = some masked) :
    advance s (.failureTripped ptr key) = some (s, {.dropRead, .asleep ptr}) := by
  simp only [advance, h]

theorem advance_findExisting {s : PoolMemory} {key : String} {existing : Cell PooledKey}
    (weight : UInt32) (hfree : s.writing = false) (hunread : s.readers = 0)
    (h : s.entryOf? key = some existing) :
    advance s (.addKey key weight)
      = some ({ s with writing := true }, {.addFound existing.ptr weight}) := by
  simp [advance, hfree, hunread, h]

theorem advance_push {s : PoolMemory} {key : String} (weight : UInt32)
    (hfree : s.writing = false) (hunread : s.readers = 0) (h : s.entryOf? key = none) :
    advance s (.addKey key weight)
      = some ({ s with
          writing := true
          keys := s.keys.push (PooledKey.fresh key weight) }, {.dropWrite}) := by
  simp [advance, hfree, hunread, h]

theorem moves_of_advance {s s' : PoolMemory} {t : PoolThread} {left : Multiset PoolThread}
    (h : advance s t = some (s', left)) : Moves s t s' left := by
  cases t with
  | acquireKey =>
      simp only [advance, Option.ite_none_left_eq_some] at h
      obtain ⟨hfree, h⟩ := h
      cases h
      exact .lockState (by simpa using hfree)
  | acquireRead =>
      simp only [advance, Option.ite_none_left_eq_some] at h
      obtain ⟨hfree, h⟩ := h
      cases h
      exact .readEntries (by simpa using hfree)
  | acquireFilter healthy rest =>
      cases rest with
      | cons ptr rest =>
          cases h
          exact .load healthy rest ptr
      | nil =>
          simp only [advance] at h
          split at h <;> rename_i hselected <;> cases h
          · exact .refuse hselected
          · exact .select hselected
  | acquireCount ptr key =>
      cases h
      exact .countRequest ptr key
  | acquireDropKeys result =>
      cases h
      exact .dropKeys result
  | acquireDropState result =>
      cases h
      exact .dropState result
  | reportSuccess acquired =>
      simp only [advance, Option.ite_none_left_eq_some] at h
      obtain ⟨hfree, h⟩ := h
      cases h
      exact .findSuccess acquired (by simpa using hfree)
  | successFound ptr =>
      cases h
      exact .clearErrors ptr
  | reportFailure acquired =>
      simp only [advance, Option.ite_none_left_eq_some] at h
      obtain ⟨hfree, h⟩ := h
      cases h
      exact .findFailure acquired (by simpa using hfree)
  | failureFound ptr key =>
      cases h
      exact .countError ptr key
  | failureCounted ptr key errors =>
      simp only [advance] at h
      split at h <;> rename_i hthree <;> cases h
      · exact .trip ptr key hthree
      · exact .tolerate ptr key hthree
  | failureTripped ptr key =>
      simp only [advance] at h
      split at h <;> rename_i hmask <;> cases h
      · exact .panicked ptr hmask
      · exact .spawn ptr hmask
  | dropRead =>
      cases h
      exact .dropRead
  | asleep ptr =>
      cases h
      exact .wake ptr
  | revived ptr =>
      cases h
      exact .recovered ptr
  | addKey key weight =>
      simp only [advance, Option.ite_none_left_eq_some, Bool.or_eq_true, decide_eq_true_eq,
        not_or, Bool.not_eq_true, ne_eq, not_not] at h
      obtain ⟨⟨hfree, hunread⟩, h⟩ := h
      split at h <;> rename_i hentry <;> cases h
      · exact .findExisting weight hfree hunread hentry
      · exact .push weight hfree hunread hentry
  | addFound ptr weight =>
      cases h
      exact .weigh ptr weight
  | addWeighed ptr =>
      cases h
      exact .revive ptr
  | addRevived ptr =>
      cases h
      exact .forgive ptr
  | removeKey key =>
      simp only [advance, Option.ite_none_left_eq_some, Bool.or_eq_true, decide_eq_true_eq,
        not_or, Bool.not_eq_true, ne_eq, not_not] at h
      obtain ⟨⟨hfree, hunread⟩, h⟩ := h
      cases h
      exact .retain key hfree hunread
  | dropWrite =>
      cases h
      exact .dropWrite

/-! ## Taking and dropping guards -/

section Guards

variable {s s' : PoolMemory} {t : PoolThread} {left : Multiset PoolThread}

/-- A call starts without a guard. -/
theorem nothing_of_entry (h : entry t = true) :
    holdsState t = 0 ∧ holdsRead t = 0 ∧ holdsWrite t = 0 := by
  cases t <;> first | exact ⟨rfl, rfl, rfl⟩ | cases h

/-- What a report holds does not depend on what it finds. -/
theorem share_found (share : PoolThread → ℕ) {next : Cell PooledKey → PoolThread}
    {sought : Option (Cell PooledKey)} (hnext : ∀ k, share (next k) = share .dropRead) :
    share (found sought next) = share .dropRead := by
  cases sought with
  | none => rfl
  | some k => exact hnext k

theorem Moves.holdsState (h : Moves s t s' left)
    (hcounted : t.holdsState ≤ s.stateLocked.toNat) :
    s'.stateLocked.toNat + t.holdsState
      = s.stateLocked.toNat + (left.map PoolThread.holdsState).sum := by
  have hle := Bool.toNat_le s.stateLocked
  cases h with
  | lockState free => simp [PoolThread.holdsState, free]
  | dropState result =>
      simp only [PoolThread.holdsState, Bool.toNat_false, Multiset.map_zero,
        Multiset.sum_zero] at hcounted ⊢
      omega
  | findSuccess | findFailure =>
      rw [Multiset.map_singleton, Multiset.sum_singleton, share_found PoolThread.holdsState]
      · rfl
      · exact fun _ => rfl
  | _ => simp [PoolThread.holdsState, PoolMemory.store]

theorem Moves.holdsRead (h : Moves s t s' left) (hcounted : t.holdsRead ≤ s.readers) :
    s'.readers + t.holdsRead = s.readers + (left.map PoolThread.holdsRead).sum := by
  cases h with
  | dropKeys | dropRead =>
      simp only [PoolThread.holdsRead, Multiset.map_zero, Multiset.sum_zero,
        Multiset.map_singleton, Multiset.sum_singleton] at hcounted ⊢
      omega
  | findSuccess | findFailure =>
      rw [Multiset.map_singleton, Multiset.sum_singleton, share_found PoolThread.holdsRead]
      · rfl
      · exact fun _ => rfl
  | _ => simp [PoolThread.holdsRead, PoolMemory.store]

theorem Moves.holdsWrite (h : Moves s t s' left)
    (hcounted : t.holdsWrite ≤ s.writing.toNat) :
    s'.writing.toNat + t.holdsWrite
      = s.writing.toNat + (left.map PoolThread.holdsWrite).sum := by
  have hle := Bool.toNat_le s.writing
  cases h with
  | findExisting _ free | push _ free | retain _ free =>
      simp [PoolThread.holdsWrite, free]
  | dropWrite =>
      simp only [PoolThread.holdsWrite, Bool.toNat_false, Multiset.map_zero,
        Multiset.sum_zero] at hcounted ⊢
      omega
  | findSuccess | findFailure =>
      rw [Multiset.map_singleton, Multiset.sum_singleton, share_found PoolThread.holdsWrite]
      · rfl
      · exact fun _ => rfl
  | _ => simp [PoolThread.holdsWrite, PoolMemory.store]

/-- A read guard is not handed out beside the write guard, nor the other way round. -/
theorem Moves.exclusive (h : Moves s t s' left)
    (hexclusive : s.writing = true → s.readers = 0) : s'.writing = true → s'.readers = 0 := by
  cases h with
  | readEntries free | findSuccess _ free | findFailure _ free => simp [free]
  | findExisting _ _ unread | push _ _ unread | retain _ _ unread => exact fun _ => unread
  | dropKeys | dropRead =>
      intro hwriting
      show s.readers - 1 = 0
      rw [hexclusive hwriting]
  | dropWrite => exact fun hwriting => Bool.noConfusion hwriting
  | _ => exact hexclusive

end Guards

end PoolThread

/-- The pool under concurrent calls. -/
abbrev PoolMachine := Threads PoolMemory PoolThread

namespace PoolMachine

/-- One action of one thread. -/
abbrev step : PoolMachine → Threads.Action PoolThread → Option PoolMachine :=
  Threads.step PoolThread.entry PoolThread.advance

/-- The recovery tasks of a pool, asleep. -/
def sleepers (tasks : List RecoveryTask) : Multiset PoolThread :=
  (tasks.map fun task => PoolThread.asleep task.ptr : List PoolThread)

/-- A pool between calls: the locks are free, and the recovery tasks sleep. -/
def idle (p : KeyPool) : PoolMachine where
  memory := {
    keys := p.keys
    state := p.state
    stateLocked := false
    readers := 0
    writing := false }
  threads := sleepers p.tasks

/-! ## The locks -/

/-- The locks are what the threads hold of them: the mutex and the write guard are held
once at most, and there is no read guard beside the write guard. -/
structure Guarded (m : PoolMachine) : Prop where
  state : m.memory.stateLocked.toNat = m.held PoolThread.holdsState
  read : m.memory.readers = m.held PoolThread.holdsRead
  write : m.memory.writing.toNat = m.held PoolThread.holdsWrite
  exclusive : m.memory.writing = true → m.memory.readers = 0

section Guarded

open PoolThread

variable {m m' : PoolMachine} {a : Threads.Action PoolThread}

theorem guarded_idle (p : KeyPool) : Guarded (idle p) := by
  have hasleep : ∀ share : PoolThread → ℕ, (∀ ptr, share (.asleep ptr) = 0) →
      (idle p).held share = 0 := by
    intro share hshare
    rw [Threads.held_eq_zero]
    intro t ht
    obtain ⟨task, -, rfl⟩ := List.mem_map.mp (Multiset.mem_coe.mp ht)
    exact hshare task.ptr
  exact ⟨(hasleep _ fun _ => rfl).symm, (hasleep _ fun _ => rfl).symm,
    (hasleep _ fun _ => rfl).symm, fun _ => rfl⟩

theorem Guarded.step (h : Guarded m) (hstep : step m a = some m') : Guarded m' where
  state := Threads.held_step PoolThread.holdsState (fun s => s.stateLocked.toNat)
    (fun _ ht => (nothing_of_entry ht).1)
    (fun _ _ _ _ hnext => (moves_of_advance hnext).holdsState) h.state hstep
  read := Threads.held_step PoolThread.holdsRead PoolMemory.readers
    (fun _ ht => (nothing_of_entry ht).2.1)
    (fun _ _ _ _ hnext => (moves_of_advance hnext).holdsRead) h.read hstep
  write := Threads.held_step PoolThread.holdsWrite (fun s => s.writing.toNat)
    (fun _ ht => (nothing_of_entry ht).2.2)
    (fun _ _ _ _ hnext => (moves_of_advance hnext).holdsWrite) h.write hstep
  exclusive := by
    rcases Threads.step_cases hstep with ⟨t, -, -, rfl⟩ |
      ⟨t, others, memory, left, -, -, hnext, rfl⟩
    · exact h.exclusive
    · exact (moves_of_advance hnext).exclusive h.exclusive

end Guarded

/-! ## The operations that happen at once -/

/-- Some run of actions leads from one to the other. -/
abbrev Reaches : PoolMachine → PoolMachine → Prop :=
  Threads.Reaches PoolThread.entry PoolThread.advance

section Reaches

open PoolThread

variable (p : KeyPool)

/-- The entry a pointer of the vector leads to. -/
theorem at?_of_mem {s : PoolMemory} {k : Cell PooledKey} (hk : k ∈ s.keys.cells) :
    s.at? k.ptr = some k := by
  obtain ⟨l, hl⟩ : ∃ l, s.at? k.ptr = some l := by
    rw [← Option.isSome_iff_exists, PoolMemory.at?, List.find?_isSome]
    exact ⟨k, hk, by simp⟩
  have hptr : l.ptr = k.ptr := by
    simpa using List.find?_some (p := fun k' : Cell PooledKey => k'.ptr = k.ptr) hl
  rw [hl, s.keys.eq_of_ptr_eq (List.mem_of_find?_eq_some hl) hk hptr]

/-- The loaded pointers lead to the entries whose flags were up. -/
theorem filterMap_at?_flag (s : PoolMemory) (flag : ℕ → Bool) :
    ((s.keys.cells.map Cell.ptr).filter flag).filterMap s.at?
      = s.keys.cells.filter fun k => flag k.ptr := by
  have hpart : ∀ part : List (Cell PooledKey), (∀ k ∈ part, k ∈ s.keys.cells) →
      ((part.map Cell.ptr).filter flag).filterMap s.at?
        = part.filter fun k => flag k.ptr := by
    intro part hpart
    induction part with
    | nil => rfl
    | cons k part ih =>
        have hrest := ih fun l hl => hpart l (List.mem_cons_of_mem k hl)
        rw [List.map_cons, List.filter_cons, List.filter_cons]
        split
        · rw [List.filterMap_cons, at?_of_mem (hpart k List.mem_cons_self), hrest]
        · exact hrest
  exact hpart _ fun k hk => hk

/-- What the loads of a call find when nothing happens between them. -/
theorem filterMap_at?_healthy (s : PoolMemory) :
    ((s.keys.cells.map Cell.ptr).filter s.healthyAt).filterMap s.at?
      = s.keys.cells.filter fun k => k.val.healthy := by
  rw [filterMap_at?_flag]
  refine List.filter_congr fun k hk => ?_
  rw [PoolMemory.healthyAt, at?_of_mem hk]
  rfl

/-- The loop over the flags, without interruption. -/
theorem reaches_filter (s : PoolMemory) (others : Multiset PoolThread)
    (healthy rest : List ℕ) :
    Reaches ⟨s, acquireFilter healthy rest ::ₘ others⟩
      ⟨s, acquireFilter (healthy ++ rest.filter s.healthyAt) [] ::ₘ others⟩ := by
  induction rest generalizing healthy with
  | nil =>
      rw [List.filter_nil, List.append_nil]
  | cons ptr rest ih =>
      refine (Threads.reaches_next others rfl).trans ?_
      convert ih _ using 3
      rw [List.filter_cons]
      split <;> simp

/-- The memory of a pool while one call holds the mutex and a read guard. -/
def acquiring (p : KeyPool) : PoolMemory where
  keys := p.keys
  state := p.state
  stateLocked := true
  readers := 1
  writing := false

/-- An acquisition that has loaded all flags, with nothing in between. -/
theorem reaches_acquiring : Reaches (idle p)
    ⟨acquiring p, PoolThread.acquireFilter
      ((p.keys.cells.map Cell.ptr).filter (acquiring p).healthyAt) [] ::ₘ sleepers p.tasks⟩ := by
  refine (Threads.reaches_start (t := PoolThread.acquireKey) _ _ rfl).trans ?_
  refine (Threads.reaches_next _ rfl).trans ?_
  refine (Threads.reaches_next _ rfl).trans ?_
  exact reaches_filter (acquiring p) (sleepers p.tasks) [] (p.keys.cells.map Cell.ptr)

theorem reaches_acquireKey : Reaches (idle p) (idle p.acquireKey.1) := by
  refine (reaches_acquiring p).trans ?_
  have hhealthy : ((p.keys.cells.map Cell.ptr).filter (acquiring p).healthyAt).filterMap
      (acquiring p).at? = p.healthyKeys := filterMap_at?_healthy (acquiring p)
  cases hselect : p.selectKey with
  | error e =>
      rw [KeyPool.acquireKey, hselect]
      rw [KeyPool.selectKey_eq, ← hhealthy] at hselect
      refine (Threads.reaches_next _ (advance_refuse hselect)).trans ?_
      refine (Threads.reaches_next _ rfl).trans ?_
      exact Threads.reaches_end _ rfl
  | ok k =>
      rw [KeyPool.acquireKey, hselect, ← hhealthy]
      rw [KeyPool.selectKey_eq, ← hhealthy] at hselect
      refine (Threads.reaches_next _ (advance_select hselect)).trans ?_
      refine (Threads.reaches_next _ rfl).trans ?_
      refine (Threads.reaches_next _ rfl).trans ?_
      exact Threads.reaches_end _ rfl

theorem reaches_reportSuccess (acquired : AcquiredKey) :
    Reaches (idle p) (idle (p.reportSuccess acquired)) := by
  refine (Threads.reaches_start (t := PoolThread.reportSuccess acquired) _ _ rfl).trans ?_
  refine (Threads.reaches_next _ rfl).trans ?_
  show Reaches ⟨_, found (p.entryOf? acquired.key) _ ::ₘ _⟩ _
  rw [KeyPool.reportSuccess]
  cases p.entryOf? acquired.key with
  | none => exact Threads.reaches_end _ rfl
  | some k =>
      refine (Threads.reaches_next _ rfl).trans ?_
      exact Threads.reaches_end _ rfl

theorem sleepers_append (tasks : List RecoveryTask) (task : RecoveryTask) :
    sleepers (tasks ++ [task]) = PoolThread.asleep task.ptr ::ₘ sleepers tasks := by
  rw [sleepers, List.map_append, ← Multiset.coe_add, add_comm]
  rfl

/-- The memory of a pool while one report holds a read guard. -/
def reporting (p : KeyPool) : PoolMemory where
  keys := p.keys
  state := p.state
  stateLocked := false
  readers := 1
  writing := false

theorem reaches_reportFailure (now : Instant) (acquired : AcquiredKey) :
    Reaches (idle p) (idle (p.reportFailure now acquired).1) := by
  refine (Threads.reaches_start (t := PoolThread.reportFailure acquired) _ _ rfl).trans ?_
  refine (Threads.reaches_next _ rfl).trans ?_
  show Reaches ⟨_, found (p.entryOf? acquired.key) _ ::ₘ _⟩ _
  cases hentry : p.entryOf? acquired.key with
  | none =>
      rw [KeyPool.reportFailure_of_none hentry]
      exact Threads.reaches_end _ rfl
  | some k =>
      have herrors : (reporting p).errorsAt k.ptr = k.val.consecutiveErrors := by
        have hat : (reporting p).at? k.ptr = some k := at?_of_mem (KeyPool.entryOf?_mem hentry)
        rw [PoolMemory.errorsAt, hat]
        rfl
      refine (Threads.reaches_next _ rfl).trans ?_
      show Reaches ⟨(reporting p).store k.ptr PooledKey.countError,
        failureCounted k.ptr k.val.key ((reporting p).errorsAt k.ptr + 1) ::ₘ _⟩ _
      rw [herrors]
      by_cases hthree : 3 ≤ k.val.consecutiveErrors + 1
      · rw [KeyPool.reportFailure_of_le hentry hthree]
        refine (Threads.reaches_next _ (if_pos hthree)).trans ?_
        have hkeys : ((reporting p).store k.ptr PooledKey.countError).store k.ptr PooledKey.trip
            = (reporting p).store k.ptr (PooledKey.trip ∘ PooledKey.countError) := by
          rw [PoolMemory.store, PoolMemory.store, PoolMemory.store, SharedVec.modify_modify]
        rw [hkeys]
        cases hmask : Config.maskKey k.val.key with
        | none =>
            rw [Option.toList_none, List.map_nil, List.append_nil]
            refine (Threads.reaches_next _ (advance_panicked _ _ hmask)).trans ?_
            exact Threads.reaches_end _ rfl
        | some masked =>
            refine (Threads.reaches_advance _ (advance_spawn _ _ hmask)).trans ?_
            rw [Multiset.insert_eq_cons, Multiset.cons_add, Multiset.singleton_add,
              ← sleepers_append p.tasks ⟨k.ptr, now + KeyPool.cooldown⟩]
            exact Threads.reaches_end _ rfl
      · rw [KeyPool.reportFailure_of_lt hentry hthree]
        refine (Threads.reaches_next _ (if_neg hthree)).trans ?_
        exact Threads.reaches_end _ rfl

theorem reaches_recover {task : RecoveryTask} (htask : task ∈ p.tasks) :
    Reaches (idle p) (idle (p.recover task)) := by
  have hthreads : idle p
      = ⟨(idle p).memory, PoolThread.asleep task.ptr ::ₘ sleepers (p.tasks.erase task)⟩ := by
    have hperm := (List.perm_cons_erase htask).map fun t => PoolThread.asleep t.ptr
    exact congrArg (Threads.mk _) (Multiset.coe_eq_coe.mpr hperm)
  have hstores : PooledKey.clearErrors ∘ PooledKey.untrip = PooledKey.revive := rfl
  rw [hthreads, KeyPool.recover, ← hstores, ← SharedVec.modify_modify]
  refine (Threads.reaches_next _ rfl).trans ?_
  exact Threads.reaches_end _ rfl

theorem reaches_addKey (key : String) (weight : UInt32) :
    Reaches (idle p) (idle (p.addKey key weight)) := by
  refine (Threads.reaches_start (t := PoolThread.addKey key weight) _ _ rfl).trans ?_
  cases hentry : p.entryOf? key with
  | none =>
      rw [KeyPool.addKey_of_none hentry]
      refine (Threads.reaches_next _
        (advance_push (s := (idle p).memory) weight rfl rfl hentry)).trans ?_
      exact Threads.reaches_end _ rfl
  | some existing =>
      have hstores : PooledKey.clearErrors ∘ PooledKey.untrip ∘ PooledKey.setWeight weight
          = PooledKey.reweigh weight := rfl
      rw [KeyPool.addKey_of_some hentry, ← hstores, ← SharedVec.modify_modify,
        ← SharedVec.modify_modify]
      refine (Threads.reaches_next _
        (advance_findExisting (s := (idle p).memory) weight rfl rfl hentry)).trans ?_
      refine (Threads.reaches_next _ rfl).trans ?_
      refine (Threads.reaches_next _ rfl).trans ?_
      refine (Threads.reaches_next _ rfl).trans ?_
      exact Threads.reaches_end _ rfl

theorem reaches_removeKey (key : String) :
    Reaches (idle p) (idle (p.removeKey key)) := by
  refine (Threads.reaches_start (t := PoolThread.removeKey key) _ _ rfl).trans ?_
  refine (Threads.reaches_next _ rfl).trans ?_
  exact Threads.reaches_end _ rfl

theorem reaches_step {p p' : KeyPool} {op : Instant × PoolOp} (h : p.step op = some p') :
    Reaches (idle p) (idle p') := by
  obtain ⟨now, op⟩ := op
  cases op with
  | acquireKey =>
      cases h
      exact reaches_acquireKey p
  | reportSuccess acquired =>
      cases h
      exact reaches_reportSuccess p acquired
  | reportFailure acquired =>
      cases h
      exact reaches_reportFailure p now acquired
  | recover task =>
      obtain ⟨htask, rfl⟩ := KeyPool.step_recover.mp h
      exact reaches_recover p htask
  | addKey key weight =>
      cases h
      exact reaches_addKey p key weight
  | removeKey key =>
      cases h
      exact reaches_removeKey p key

/-- **The operations that happen at once are runs of the machine**: whatever pool a
sequence of them leads to, calls that do not overlap lead there too. -/
theorem exists_run_of_operations {p p' : KeyPool} {ops : List (Instant × PoolOp)}
    (h : Runs.run KeyPool.step p ops = some p') :
    ∃ actions, Runs.run step (idle p) actions = some (idle p') := by
  refine Runs.run_invariant (I := fun p' => Reaches (idle p) (idle p'))
    (fun _ _ _ hreach hstep => ?_) ⟨[], rfl⟩ h
  exact Threads.Reaches.trans hreach (reaches_step hstep)

/-- Three failures reported one after another, each taken whole. -/
theorem exists_run_of_operations_tripped :
    ∃ actions, Runs.run step (idle (KeyPool.new [⟨"tp-1", 1⟩])) actions
      = some (idle ⟨SharedVec.ofList [⟨"tp-1", 1, false, 3, 0⟩], ⟨0⟩, [⟨0, KeyPool.cooldown⟩]⟩) :=
  @exists_run_of_operations (KeyPool.new [⟨"tp-1", 1⟩])
    ⟨SharedVec.ofList [⟨"tp-1", 1, false, 3, 0⟩], ⟨0⟩, [⟨0, KeyPool.cooldown⟩]⟩
    [(0, .reportFailure ⟨"tp-1"⟩), (0, .reportFailure ⟨"tp-1"⟩),
      (0, .reportFailure ⟨"tp-1"⟩)] (by decide)

end Reaches

end PoolMachine

end XiaomiProxy
