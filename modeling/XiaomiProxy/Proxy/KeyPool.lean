import XiaomiProxy.Config
import XiaomiProxy.Error
import XiaomiProxy.Lib.SharedVec

/-!
# The key pool

`KeyPool` of `proxy/key_pool.rs`.  The pool is a vector of shared entries, the
position of the round robin, and — what the Tokio runtime holds on its behalf —
the recovery tasks that were spawned and have not fired yet.  A task holds the
allocation of the entry it will revive, so it goes on holding it after the entry
left the vector, and an entry added later under the same key is another one.

Counters are `u32` and wrap, as in release builds; `usize` is 64 bits wide.  The
only operation that can panic is `reportFailure`, in the log line between
marking an entry unhealthy and spawning its recovery task, which the default log
filter lets through; its result is the pool it leaves behind and whether it
returned.

Each store into an entry is a function on entries of its own (`countRequest`,
`countError`, `clearErrors`, `trip`, `revive`, `reweigh`), so what an operation
does to one field is read off the store.
-/

namespace XiaomiProxy

structure PooledKey where
  key : String
  weight : UInt32
  healthy : Bool
  consecutiveErrors : UInt32
  requestCount : UInt32
  deriving DecidableEq, Repr

namespace PooledKey

/-- A new entry: healthy, with all counters at zero. -/
def fresh (key : String) (weight : UInt32) : PooledKey where
  key
  weight
  healthy := true
  consecutiveErrors := 0
  requestCount := 0

def countRequest (k : PooledKey) : PooledKey :=
  { k with requestCount := k.requestCount + 1 }

def countError (k : PooledKey) : PooledKey :=
  { k with consecutiveErrors := k.consecutiveErrors + 1 }

def clearErrors (k : PooledKey) : PooledKey := { k with consecutiveErrors := 0 }

def trip (k : PooledKey) : PooledKey := { k with healthy := false }

def revive (k : PooledKey) : PooledKey :=
  { k with healthy := true, consecutiveErrors := 0 }

def reweigh (weight : UInt32) (k : PooledKey) : PooledKey :=
  { k with weight := weight, healthy := true, consecutiveErrors := 0 }

end PooledKey

structure PoolState where
  roundRobinIndex : UInt64
  deriving DecidableEq, Repr

/-- A recovery task that has not fired: the entry it holds, and when its sleep
ends. -/
structure RecoveryTask where
  ptr : ℕ
  due : Instant
  deriving DecidableEq, Repr

structure KeyPool where
  keys : SharedVec PooledKey
  state : PoolState
  tasks : List RecoveryTask
  deriving DecidableEq

structure AcquiredKey where
  key : String
  deriving DecidableEq, Repr

namespace KeyPool

/-- How long a tripped entry sleeps. -/
def cooldown : Duration := Duration.fromSecs 60

/-- `KeyPool::new`. -/
def new (configs : List DownstreamKeyConfig) : KeyPool where
  keys := SharedVec.ofList (configs.map fun c => PooledKey.fresh c.key c.weight)
  state := { roundRobinIndex := 0 }
  tasks := []

/-! ## Acquiring -/

/-- The entries in rotation. -/
def healthyKeys (p : KeyPool) : List (Cell PooledKey) :=
  p.keys.cells.filter fun k => k.val.healthy

/-- The `u32` sum of the weights. -/
def totalWeight (keys : List (Cell PooledKey)) : UInt32 :=
  keys.foldl (fun sum k => sum + k.val.weight) 0

/-- The loop of `acquire_key`: the first entry at which the accumulated weight
exceeds the index. -/
def scan (index : UInt64) : UInt32 → List (Cell PooledKey) → Option (Cell PooledKey)
  | _, [] => none
  | accumulated, k :: keys =>
      let accumulated := accumulated + k.val.weight
      if index < accumulated.toUInt64 then some k else scan index accumulated keys

/-- The entry `acquire_key` settles on.  When the loop ends without one, it is
the first healthy entry. -/
def selectKey (p : KeyPool) : Except AppError (Cell PooledKey) :=
  match p.healthyKeys with
  | [] => .error .noKeysAvailable
  | first :: rest =>
      let total := totalWeight (first :: rest)
      if total = 0 then .error .noKeysAvailable
      else
        let index := p.state.roundRobinIndex % total.toUInt64
        -- the fallback after the loop is the first healthy entry
        .ok ((scan index 0 (first :: rest)).getD first)

/-- `KeyPool::acquire_key`. -/
def acquireKey (p : KeyPool) : KeyPool × Except AppError AcquiredKey :=
  match p.selectKey with
  | .error e => (p, .error e)
  | .ok k =>
      -- the stored index is reduced by the total of this call, not of the next one
      let total := totalWeight p.healthyKeys
      ({ p with
          keys := p.keys.modify k.ptr PooledKey.countRequest
          state := { roundRobinIndex :=
            (p.state.roundRobinIndex + 1) % total.toUInt64 } },
        .ok { key := k.val.key })

/-! ## Reporting -/

/-- The entry a report is about: the first one with the key. -/
def entryOf? (p : KeyPool) (key : String) : Option (Cell PooledKey) :=
  p.keys.find? fun k => k.key = key

/-- `KeyPool::report_success`. -/
def reportSuccess (p : KeyPool) (acquired : AcquiredKey) : KeyPool :=
  match p.entryOf? acquired.key with
  | some k => { p with keys := p.keys.modify k.ptr PooledKey.clearErrors }
  | none => p

/-- `KeyPool::report_failure` at time `now`: the pool it leaves behind, and
whether it returned.  Without a mask for the key, it panics in the log line,
after the entry was marked unhealthy and before its recovery task was spawned. -/
def reportFailure (now : Instant) (p : KeyPool) (acquired : AcquiredKey) :
    KeyPool × Option Unit :=
  match p.entryOf? acquired.key with
  | none => (p, some ())
  | some k =>
      let errors := k.val.consecutiveErrors + 1
      let counted := p.keys.modify k.ptr PooledKey.countError
      if 3 ≤ errors then
        let tripped := counted.modify k.ptr PooledKey.trip
        -- the log line stands between the trip and the spawning of the task
        match Config.maskKey k.val.key with
        | none => ({ p with keys := tripped }, none)
        | some _ =>
            ({ p with
                keys := tripped
                tasks := p.tasks ++ [{ ptr := k.ptr, due := now + cooldown }] },
              some ())
      else ({ p with keys := counted }, some ())

/-- What a recovery task does when its sleep ends. -/
def recover (p : KeyPool) (task : RecoveryTask) : KeyPool :=
  { p with
    keys := p.keys.modify task.ptr PooledKey.revive
    tasks := p.tasks.erase task }

/-! ## Membership -/

/-- `KeyPool::add_key`. -/
def addKey (p : KeyPool) (key : String) (weight : UInt32) : KeyPool :=
  match p.entryOf? key with
  | some existing =>
      -- the entry stays, with its pending tasks and its request counter
      { p with keys := p.keys.modify existing.ptr (PooledKey.reweigh weight) }
  | none => { p with keys := p.keys.push (PooledKey.fresh key weight) }

/-- `KeyPool::remove_key`. -/
def removeKey (p : KeyPool) (key : String) : KeyPool :=
  { p with keys := p.keys.retain fun k => k.key ≠ key }

/-! ## The entry a key names -/

section Entry

variable {p : KeyPool} {key : String} {k l : Cell PooledKey}

theorem entryOf?_mem (h : p.entryOf? key = some k) : k ∈ p.keys.cells :=
  SharedVec.mem_of_find? h

theorem entryOf?_key (h : p.entryOf? key = some k) : k.val.key = key := by
  simpa using SharedVec.test_of_find? h

theorem entryOf?_eq_none :
    p.entryOf? key = none ↔ ∀ k ∈ p.keys.cells, k.val.key ≠ key := by
  rw [entryOf?, SharedVec.find?_eq_none]
  simp

/-- A store that keeps keys keeps what they name. -/
theorem entryOf?_modify (ptr : ℕ) {f : PooledKey → PooledKey}
    (hkey : ∀ e, (f e).key = e.key) (state : PoolState) (tasks : List RecoveryTask) :
    entryOf? { keys := p.keys.modify ptr f, state, tasks } key
      = (p.entryOf? key).map (Cell.update ptr f) :=
  SharedVec.find?_modify p.keys ptr fun e => by rw [hkey]

/-- No two entries hold the same key. -/
def DistinctKeys (p : KeyPool) : Prop :=
  (p.keys.cells.map fun k => k.val.key).Nodup

instance decidableDistinctKeys (p : KeyPool) : Decidable p.DistinctKeys :=
  inferInstanceAs (Decidable (List.Nodup _))

theorem DistinctKeys.eq_of_key_eq (h : p.DistinctKeys) (hk : k ∈ p.keys.cells)
    (hl : l ∈ p.keys.cells) (heq : k.val.key = l.val.key) : k = l :=
  List.inj_on_of_nodup_map h hk hl heq

end Entry

/-! ## What an operation can do -/

theorem mem_of_scan {index : UInt64} {accumulated : UInt32}
    {keys : List (Cell PooledKey)} {k : Cell PooledKey}
    (h : scan index accumulated keys = some k) : k ∈ keys := by
  induction keys generalizing accumulated with
  | nil => cases h
  | cons l keys ih =>
      simp only [scan] at h
      split at h
      · rw [← Option.some.inj h]
        exact List.mem_cons_self
      · exact List.mem_cons_of_mem _ (ih h)

/-- Only a lack of keys keeps a selection from succeeding. -/
theorem selectKey_error {p : KeyPool} {e : AppError} (h : p.selectKey = .error e) :
    e = .noKeysAvailable := by
  unfold selectKey at h
  split at h
  · exact (Except.error.inj h).symm
  · simp only at h
    split at h
    · exact (Except.error.inj h).symm
    · cases h

/-- The selected entry is one of the healthy ones. -/
theorem mem_of_selectKey {p : KeyPool} {k : Cell PooledKey}
    (h : p.selectKey = .ok k) : k ∈ p.keys.cells ∧ k.val.healthy = true := by
  have hk : k ∈ p.healthyKeys := by
    unfold selectKey at h
    cases hkeys : p.healthyKeys with
    | nil =>
        rw [hkeys] at h
        cases h
    | cons first rest =>
        simp only [hkeys] at h
        split at h
        · cases h
        · rw [← Except.ok.inj h]
          cases hscan : scan (p.state.roundRobinIndex
              % (totalWeight (first :: rest)).toUInt64) 0 (first :: rest) with
          | none => exact List.mem_cons_self
          | some l => exact mem_of_scan hscan
  exact List.mem_filter.mp hk

/-- An acquisition fails and changes nothing, or it counts a request on a healthy
entry and moves the round robin. -/
theorem acquireKey_cases (p : KeyPool) :
    (∃ e, p.selectKey = .error e ∧ p.acquireKey = (p, .error e)) ∨
      ∃ k index, p.selectKey = .ok k ∧ k ∈ p.keys.cells ∧ k.val.healthy = true ∧
        p.acquireKey = ({ p with
          keys := p.keys.modify k.ptr PooledKey.countRequest
          state := { roundRobinIndex := index } }, .ok { key := k.val.key }) := by
  cases hselect : p.selectKey with
  | error e => exact Or.inl ⟨e, rfl, by rw [acquireKey, hselect]⟩
  | ok k =>
      obtain ⟨hmem, hhealthy⟩ := mem_of_selectKey hselect
      exact Or.inr ⟨k, _, rfl, hmem, hhealthy, by rw [acquireKey, hselect]⟩

theorem reportSuccess_of_none {p : KeyPool} {acquired : AcquiredKey}
    (h : p.entryOf? acquired.key = none) : p.reportSuccess acquired = p := by
  rw [reportSuccess, h]

theorem reportSuccess_of_some {p : KeyPool} {acquired : AcquiredKey}
    {k : Cell PooledKey} (h : p.entryOf? acquired.key = some k) :
    p.reportSuccess acquired
      = { p with keys := p.keys.modify k.ptr PooledKey.clearErrors } := by
  rw [reportSuccess, h]

theorem reportFailure_of_none {now : Instant} {p : KeyPool} {acquired : AcquiredKey}
    (h : p.entryOf? acquired.key = none) :
    p.reportFailure now acquired = (p, some ()) := by
  rw [reportFailure, h]

/-- Below the threshold, a failure is counted. -/
theorem reportFailure_of_lt {now : Instant} {p : KeyPool} {acquired : AcquiredKey}
    {k : Cell PooledKey} (h : p.entryOf? acquired.key = some k)
    (hlt : ¬ 3 ≤ k.val.consecutiveErrors + 1) :
    p.reportFailure now acquired
      = ({ p with keys := p.keys.modify k.ptr PooledKey.countError }, some ()) := by
  simp only [reportFailure, h, if_neg hlt]

/-- At the threshold, the entry is tripped; then its recovery task is spawned,
unless the log line before panics. -/
theorem reportFailure_of_le {now : Instant} {p : KeyPool} {acquired : AcquiredKey}
    {k : Cell PooledKey} (h : p.entryOf? acquired.key = some k)
    (hle : 3 ≤ k.val.consecutiveErrors + 1) :
    p.reportFailure now acquired
      = ({ p with
          keys := p.keys.modify k.ptr (PooledKey.trip ∘ PooledKey.countError)
          tasks := p.tasks ++ ((Config.maskKey k.val.key).toList.map fun _ =>
            { ptr := k.ptr, due := now + cooldown }) },
        (Config.maskKey k.val.key).map fun _ => ()) := by
  simp only [reportFailure, h, if_pos hle, SharedVec.modify_modify]
  cases Config.maskKey k.val.key with
  | none => simp
  | some masked => rfl

/-- What a failure leaves of the pool: everything, if no entry has the key, and otherwise
all but one entry, whose error is counted and which may be tripped, and the tasks. -/
theorem reportFailure_cases (now : Instant) (p : KeyPool) (acquired : AcquiredKey) :
    (p.reportFailure now acquired).1 = p ∨ ∃ ptr f tasks,
      (f = PooledKey.countError ∨ f = PooledKey.trip ∘ PooledKey.countError) ∧
        (p.reportFailure now acquired).1
          = { p with keys := p.keys.modify ptr f, tasks } := by
  cases hentry : p.entryOf? acquired.key with
  | none =>
      rw [reportFailure_of_none hentry]
      exact Or.inl rfl
  | some k =>
      by_cases hle : 3 ≤ k.val.consecutiveErrors + 1
      · rw [reportFailure_of_le hentry hle]
        exact Or.inr ⟨k.ptr, _, _, Or.inr rfl, rfl⟩
      · rw [reportFailure_of_lt hentry hle]
        exact Or.inr ⟨k.ptr, _, _, Or.inl rfl, rfl⟩

theorem addKey_of_some {p : KeyPool} {key : String} {weight : UInt32}
    {k : Cell PooledKey} (h : p.entryOf? key = some k) :
    p.addKey key weight
      = { p with keys := p.keys.modify k.ptr (PooledKey.reweigh weight) } := by
  rw [addKey, h]

theorem addKey_of_none {p : KeyPool} {key : String} {weight : UInt32}
    (h : p.entryOf? key = none) :
    p.addKey key weight
      = { p with keys := p.keys.push (PooledKey.fresh key weight) } := by
  rw [addKey, h]

end KeyPool

end XiaomiProxy
