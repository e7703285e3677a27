import XiaomiProxy.Handlers.DownstreamSync
import XiaomiProxy.Proxy.PoolRuns
import XiaomiProxy.Proxy.Rotation
import XiaomiProxy.Seeding

/-!
# The pool of a running program

The pool between its start and its end: the downstream-key operations of the admin,
acquisitions, reports of their outcomes and recovery tasks, in any order.  `LivePool`
keeps, beside the state, the acquisitions that were not reported yet, each with the
entry it was counted on; no step looks at that entry.

A report finds its entry by key.  The entry it finds is the one that served the
acquisition, if that is still in the pool, because entries keep their keys
(`KeepsNames`) and no two have the same one.  No step makes two entries with one key;
the start does exactly if it seeds a table from a configuration that lists a key twice,
or reads two keys of the table as the same text (`always_chargesServer_iff`).
-/

namespace XiaomiProxy

/-- An acquisition that was not reported yet, and the entry it was counted on. -/
structure InFlight where
  acquired : AcquiredKey
  ptr : ℕ
  deriving DecidableEq, Repr

/-- What can happen to the pool of a running program. -/
inductive LiveOp where
  | admin (op : DownstreamOp)
  | acquire
  | reportSuccess (request : InFlight)
  | reportFailure (now : Instant) (request : InFlight)
  | recover (task : RecoveryTask)

structure LivePool where
  state : AppState
  inFlight : List InFlight

namespace KeyPool

/-- The acquisition a call of `acquire_key` makes, with the entry whose request counter it
raises. -/
def served (p : KeyPool) : List InFlight :=
  match p.acquireKey.2 with
  | .error _ => []
  | .ok acquired => (p.counted p.acquireKey.1).map fun k => { acquired, ptr := k.ptr }

/-- A call that succeeds counts its request on one entry, and returns the key of that
entry. -/
theorem served_of_ok {p : KeyPool} {acquired : AcquiredKey}
    (h : p.acquireKey.2 = .ok acquired) :
    ∃ k ∈ p.keys.cells, k.val.key = acquired.key ∧
      p.served = [{ acquired, ptr := k.ptr }] := by
  rcases p.acquireKey_cases with ⟨e, -, hacquire⟩ | ⟨k, index, -, hmem, -, hacquire⟩
  · rw [hacquire] at h
    cases h
  · refine ⟨k, hmem, ?_, ?_⟩
    · rw [hacquire] at h
      exact congrArg AcquiredKey.key (Except.ok.inj h)
    · rw [served, h]
      simp only [hacquire, counted_modify hmem, List.map_cons, List.map_nil]

/-- The entry an acquisition is kept with has the key that was acquired. -/
theorem of_mem_served {p : KeyPool} {request : InFlight} (h : request ∈ p.served) :
    ∃ k ∈ p.keys.cells, k.ptr = request.ptr ∧ k.val.key = request.acquired.key := by
  cases hacquired : p.acquireKey.2 with
  | error e =>
      rw [served, hacquired] at h
      cases h
  | ok acquired =>
      obtain ⟨k, hk, hkey, hserved⟩ := served_of_ok hacquired
      rw [hserved, List.mem_singleton] at h
      subst h
      exact ⟨k, hk, rfl, hkey⟩

/-- Reports about an acquired key are charged to this entry, and to no other: a success
forgives its errors, and a failure is one more and takes it out from the third on. -/
structure ChargedTo (p : KeyPool) (acquired : AcquiredKey) (k : Cell PooledKey) : Prop where
  success : (p.reportSuccess acquired).keys
    = p.keys.modify k.ptr fun e => { e with consecutiveErrors := 0 }
  failure : ∀ now, (p.reportFailure now acquired).1.keys = p.keys.modify k.ptr fun e =>
    { e with
      consecutiveErrors := e.consecutiveErrors + 1
      healthy := if 3 ≤ e.consecutiveErrors + 1 then false else e.healthy }

/-- A report is charged to the entry its key names. -/
theorem chargedTo_of_entryOf {p : KeyPool} {acquired : AcquiredKey} {k : Cell PooledKey}
    (h : p.entryOf? acquired.key = some k) : p.ChargedTo acquired k := by
  constructor
  · rw [reportSuccess_of_some h]
    rfl
  · intro now
    have hmem := entryOf?_mem h
    by_cases hle : 3 ≤ k.val.consecutiveErrors + 1
    · rw [reportFailure_of_le h hle]
      refine (p.keys.modify_eq_modify_iff hmem _ _).mpr ?_
      rw [if_pos hle]
      rfl
    · rw [reportFailure_of_lt h hle]
      refine (p.keys.modify_eq_modify_iff hmem _ _).mpr ?_
      rw [if_neg hle]
      rfl

/-- With distinct keys, an entry is the one its key names. -/
theorem DistinctKeys.entryOf_eq {p : KeyPool} (h : p.DistinctKeys) {k : Cell PooledKey}
    (hk : k ∈ p.keys.cells) : p.entryOf? k.val.key = some k := by
  cases hentry : p.entryOf? k.val.key with
  | none => exact absurd rfl (entryOf?_eq_none.mp hentry k hk)
  | some l => rw [h.eq_of_key_eq (entryOf?_mem hentry) hk (entryOf?_key hentry)]

/-! ## Entries keep their keys -/

/-- The entries of `p'` that were there in `p` have the keys they had. -/
structure KeepsNames (p p' : KeyPool) : Prop where
  next : p.keys.next ≤ p'.keys.next
  names : ∀ k' ∈ p'.keys.cells, k'.ptr < p.keys.next →
    ∃ k ∈ p.keys.cells, k.ptr = k'.ptr ∧ k.val.key = k'.val.key

section KeepsNames

variable (p : KeyPool)

theorem KeepsNames.refl : KeepsNames p p :=
  ⟨le_rfl, fun k hk _ => ⟨k, hk, rfl, rfl⟩⟩

/-- A store that keeps the key. -/
theorem keepsNames_modify (ptr : ℕ) {f : PooledKey → PooledKey}
    (hkey : ∀ e, (f e).key = e.key) (state : PoolState) (tasks : List RecoveryTask) :
    KeepsNames p { keys := p.keys.modify ptr f, state, tasks } := by
  refine ⟨le_rfl, fun k' hk' _ => ?_⟩
  obtain ⟨k, hk, rfl⟩ := SharedVec.mem_modify.mp hk'
  exact ⟨k, hk, (k.update_ptr ptr f).symm, (Cell.update_attr hkey ptr k).symm⟩

theorem keepsNames_acquireKey : KeepsNames p p.acquireKey.1 := by
  rcases p.acquireKey_cases with ⟨e, -, heq⟩ | ⟨k, index, -, -, -, heq⟩ <;> rw [heq]
  · exact KeepsNames.refl p
  · exact p.keepsNames_modify (f := PooledKey.countRequest) k.ptr (fun _ => rfl) _ _

theorem keepsNames_reportSuccess (acquired : AcquiredKey) :
    KeepsNames p (p.reportSuccess acquired) := by
  cases hentry : p.entryOf? acquired.key with
  | none =>
      rw [reportSuccess_of_none hentry]
      exact KeepsNames.refl p
  | some k =>
      rw [reportSuccess_of_some hentry]
      exact p.keepsNames_modify (f := PooledKey.clearErrors) k.ptr (fun _ => rfl) _ _

theorem keepsNames_reportFailure (now : Instant) (acquired : AcquiredKey) :
    KeepsNames p (p.reportFailure now acquired).1 := by
  rcases reportFailure_cases now p acquired with heq | ⟨ptr, f, tasks, rfl | rfl, heq⟩ <;>
    rw [heq]
  · exact KeepsNames.refl p
  · exact p.keepsNames_modify (f := PooledKey.countError) ptr (fun _ => rfl) _ _
  · exact p.keepsNames_modify (f := PooledKey.trip ∘ PooledKey.countError) ptr
      (fun _ => rfl) _ _

theorem keepsNames_recover (task : RecoveryTask) : KeepsNames p (p.recover task) :=
  p.keepsNames_modify (f := PooledKey.revive) task.ptr (fun _ => rfl) _ _

theorem keepsNames_addKey (key : String) (weight : UInt32) :
    KeepsNames p (p.addKey key weight) := by
  cases hentry : p.entryOf? key with
  | none =>
      rw [addKey_of_none hentry]
      refine ⟨Nat.le_succ _, fun k' hk' hlt => ?_⟩
      rw [SharedVec.push_cells] at hk'
      rcases List.mem_append.mp hk' with hold | hnew
      · exact ⟨k', hold, rfl, rfl⟩
      · -- the entry that is pushed was not there in `p`
        rw [List.mem_singleton.mp hnew] at hlt
        exact absurd hlt (lt_irrefl _)
  | some existing =>
      rw [addKey_of_some hentry]
      exact p.keepsNames_modify (f := PooledKey.reweigh weight) existing.ptr
        (fun _ => rfl) _ _

theorem keepsNames_removeKey (key : String) : KeepsNames p (p.removeKey key) :=
  ⟨le_rfl, fun k hk _ => ⟨k, List.mem_of_mem_filter hk, rfl, rfl⟩⟩

theorem keepsNames_step {p p' : KeyPool} {op : Instant × PoolOp}
    (hstep : p.step op = some p') : KeepsNames p p' := by
  obtain ⟨now, op⟩ := op
  cases op with
  | acquireKey =>
      cases hstep
      exact p.keepsNames_acquireKey
  | reportSuccess acquired =>
      cases hstep
      exact p.keepsNames_reportSuccess acquired
  | reportFailure acquired =>
      cases hstep
      exact p.keepsNames_reportFailure now acquired
  | recover task =>
      obtain ⟨-, rfl⟩ := step_recover.mp hstep
      exact p.keepsNames_recover task
  | addKey key weight =>
      cases hstep
      exact p.keepsNames_addKey key weight
  | removeKey key =>
      cases hstep
      exact p.keepsNames_removeKey key

end KeepsNames

end KeyPool

namespace LivePool

/-- One step.  A report ends its acquisition, and a recovery task fires only if it is
pending. -/
def step (s : LivePool) : LiveOp → Option LivePool
  | .admin op => (s.state.downstreamStep op).map fun state => { s with state }
  | .acquire => some {
      state := { s.state with keyPool := s.state.keyPool.acquireKey.1 }
      inFlight := s.inFlight ++ s.state.keyPool.served }
  | .reportSuccess request =>
      if request ∈ s.inFlight then some {
        state :=
          { s.state with keyPool := s.state.keyPool.reportSuccess request.acquired }
        inFlight := s.inFlight.erase request }
      else none
  | .reportFailure now request =>
      if request ∈ s.inFlight then some {
        state :=
          { s.state with keyPool := (s.state.keyPool.reportFailure now request.acquired).1 }
        inFlight := s.inFlight.erase request }
      else none
  | .recover task =>
      if task ∈ s.state.keyPool.tasks then
        some { s with state := { s.state with keyPool := s.state.keyPool.recover task } }
      else none

/-- No two entries hold the same key, an acquisition is counted on one entry, and as long
as that entry is in the pool, the reports of the acquisition are charged to it. -/
structure ChargesServer (s : LivePool) : Prop where
  distinct : s.state.keyPool.DistinctKeys
  counted : ∀ acquired, s.state.keyPool.acquireKey.2 = .ok acquired →
    ∃ k ∈ s.state.keyPool.keys.cells, s.state.keyPool.served = [{ acquired, ptr := k.ptr }]
  charged : ∀ request ∈ s.inFlight, ∀ k ∈ s.state.keyPool.keys.cells,
    k.ptr = request.ptr → s.state.keyPool.ChargedTo request.acquired k

section Step

variable {s s' : LivePool} {op : LiveOp}

/-- What an operation of the admin does to the pool. -/
theorem pool_downstreamStep {s s' : AppState} {op : DownstreamOp}
    (hstep : s.downstreamStep op = some s') :
    s'.keyPool = s.keyPool ∨ ∃ poolOp, s.keyPool.step poolOp = some s'.keyPool := by
  cases op with
  | add reply payload =>
      cases hstep
      rcases reply with e | now
      · exact Or.inl rfl
      · exact Or.inr ⟨(0, .addKey (Str.trim payload.key) (asU32 payload.weight)), rfl⟩
  | update reply key weight =>
      cases hstep
      rcases reply with e | now
      · exact Or.inl rfl
      · exact Or.inr ⟨(0, .addKey key (asU32 (max weight 1))), rfl⟩
  | delete reply key =>
      cases hstep
      rcases reply with e | now
      · exact Or.inl rfl
      · exact Or.inr ⟨(0, .removeKey key), rfl⟩

/-- **What a step does to the pool**: nothing, or one operation of its own. -/
theorem pool_step (hstep : s.step op = some s') :
    s'.state.keyPool = s.state.keyPool ∨
      ∃ poolOp, s.state.keyPool.step poolOp = some s'.state.keyPool := by
  cases op with
  | admin op =>
      obtain ⟨state, hadmin, rfl⟩ := Option.map_eq_some_iff.mp hstep
      exact pool_downstreamStep hadmin
  | acquire =>
      cases hstep
      exact Or.inr ⟨(0, .acquireKey), rfl⟩
  | reportSuccess request =>
      obtain ⟨-, hstep⟩ := Option.ite_none_right_eq_some.mp hstep
      cases hstep
      exact Or.inr ⟨(0, .reportSuccess request.acquired), rfl⟩
  | reportFailure now request =>
      obtain ⟨-, hstep⟩ := Option.ite_none_right_eq_some.mp hstep
      cases hstep
      exact Or.inr ⟨(now, .reportFailure request.acquired), rfl⟩
  | recover task =>
      obtain ⟨hpending, hstep⟩ := Option.ite_none_right_eq_some.mp hstep
      cases hstep
      exact Or.inr ⟨(0, .recover task), KeyPool.step_recover.mpr ⟨hpending, rfl⟩⟩

/-- An acquisition in flight after a step was in flight before, or the step made it. -/
theorem inFlight_step (hstep : s.step op = some s') {request : InFlight}
    (hmem : request ∈ s'.inFlight) :
    request ∈ s.inFlight ∨ request ∈ s.state.keyPool.served := by
  cases op with
  | admin op =>
      obtain ⟨state, -, rfl⟩ := Option.map_eq_some_iff.mp hstep
      exact Or.inl hmem
  | acquire =>
      cases hstep
      exact List.mem_append.mp hmem
  | reportSuccess request' =>
      obtain ⟨-, hstep⟩ := Option.ite_none_right_eq_some.mp hstep
      cases hstep
      exact Or.inl (List.mem_of_mem_erase hmem)
  | reportFailure now request' =>
      obtain ⟨-, hstep⟩ := Option.ite_none_right_eq_some.mp hstep
      cases hstep
      exact Or.inl (List.mem_of_mem_erase hmem)
  | recover task =>
      obtain ⟨-, hstep⟩ := Option.ite_none_right_eq_some.mp hstep
      cases hstep
      exact Or.inl hmem

/-- Keys are distinct, and the entry of an acquisition in flight was handed out before
and has, as long as it is in the pool, the key that was acquired. -/
structure NamesServers (s : LivePool) : Prop where
  distinct : s.state.keyPool.DistinctKeys
  issued : ∀ request ∈ s.inFlight, request.ptr < s.state.keyPool.keys.next
  named : ∀ request ∈ s.inFlight, ∀ k ∈ s.state.keyPool.keys.cells,
    k.ptr = request.ptr → k.val.key = request.acquired.key

theorem NamesServers.chargesServer (h : s.NamesServers) : s.ChargesServer := by
  refine ⟨h.distinct, fun acquired hacquired => ?_, fun request hrequest k hk hptr => ?_⟩
  · obtain ⟨k, hk, -, hserved⟩ := KeyPool.served_of_ok hacquired
    exact ⟨k, hk, hserved⟩
  · apply KeyPool.chargedTo_of_entryOf
    rw [← h.named request hrequest k hk hptr]
    exact h.distinct.entryOf_eq hk

/-- **Every step keeps the names.** -/
theorem NamesServers.step (h : s.NamesServers) (hstep : s.step op = some s') :
    s'.NamesServers := by
  have hnames : KeyPool.KeepsNames s.state.keyPool s'.state.keyPool := by
    rcases pool_step hstep with hsame | ⟨poolOp, hpool⟩
    · rw [hsame]
      exact KeyPool.KeepsNames.refl _
    · exact KeyPool.keepsNames_step hpool
  -- an acquisition and its entry as they were before the step
  have hbefore : ∀ request ∈ s'.inFlight, request.ptr < s.state.keyPool.keys.next ∧
      ∀ k ∈ s.state.keyPool.keys.cells, k.ptr = request.ptr →
        k.val.key = request.acquired.key := by
    intro request hrequest
    rcases inFlight_step hstep hrequest with hold | hserved
    · exact ⟨h.issued request hold, h.named request hold⟩
    · obtain ⟨k, hk, hptr, hkey⟩ := KeyPool.of_mem_served hserved
      refine ⟨hptr ▸ s.state.keyPool.keys.ptr_lt k hk, fun l hl hlptr => ?_⟩
      rw [s.state.keyPool.keys.eq_of_ptr_eq hl hk (hlptr.trans hptr.symm), hkey]
  constructor
  · rcases pool_step hstep with hsame | ⟨poolOp, hpool⟩
    · rw [hsame]
      exact h.distinct
    · exact h.distinct.step hpool
  · intro request hrequest
    exact (hbefore request hrequest).1.trans_le hnames.next
  · intro request hrequest k' hk' hptr
    obtain ⟨hissued, hnamed⟩ := hbefore request hrequest
    obtain ⟨k, hk, hkptr, hkey⟩ := hnames.names k' hk' (hptr ▸ hissued)
    rw [← hkey]
    exact hnamed k hk (hkptr.trans hptr)

end Step

/-- A start that finds no downstream keys in the table finds each key once in the
configuration, and one that loads the table reads no two of its keys as the same text. -/
def LoadsDistinct (reading : TextReading) (config : Config) (db : Db) : Prop :=
  if db.downstreamKeys.keys = [] then (AppState.configuredDownstreams config).Nodup
  else (db.downstreamKeys.keys.map reading.read).Nodup

instance (reading : TextReading) (config : Config) (db : Db) :
    Decidable (LoadsDistinct reading config db) :=
  inferInstanceAs (Decidable (if db.downstreamKeys.keys = [] then _ else _))

/-- A start leaves a pool with distinct keys exactly if it does not load a key twice. -/
theorem distinctKeys_new_iff {boot : Boot} {config : Config} {db : Db} {s : AppState}
    (h : AppState.new boot config db = .ok s) :
    s.keyPool.DistinctKeys ↔ LoadsDistinct boot.reading config db := by
  rw [KeyPool.DistinctKeys, ← KeyPool.keyNames, (AppState.perm_keyNames_of_new h).nodup_iff,
    AppState.loadedDownstreams, LoadsDistinct]
  split <;> rfl

/-- **Outcomes are charged to the entry that served them, in every state of every run,
exactly if the start does not load a key twice.** -/
theorem always_chargesServer_iff (boot : Boot) (config : Config) (db : Db) {s : AppState}
    (h : AppState.new boot config db = .ok s) (ops : List LiveOp) :
    Runs.Always step ChargesServer { state := s, inFlight := [] } ops ↔
      LoadsDistinct boot.reading config db := by
  rw [← distinctKeys_new_iff h]
  constructor
  · intro halways
    cases ops with
    | nil => exact halways.distinct
    | cons op ops => exact halways.1.distinct
  · intro hdistinct
    have hstart : NamesServers { state := s, inFlight := [] } :=
      ⟨hdistinct, nofun, nofun⟩
    have hnames : Runs.Always step NamesServers { state := s, inFlight := [] } ops :=
      Runs.always_of_invariant (fun _ _ _ hnames hstep => hnames.step hstep) hstart ops
    exact hnames.mono fun _ hnames => hnames.chargesServer

/-- A key is acquired and removed, added again and acquired, and both acquisitions are
reported. -/
def readdedKey : List LiveOp :=
  [.acquire, .admin (.delete (.ok "now") "tp-1"), .admin (.add (.ok "now") ⟨"tp-1", 1⟩),
    .acquire, .reportFailure 0 { acquired := ⟨"tp-1"⟩, ptr := 0 },
    .reportSuccess { acquired := ⟨"tp-1"⟩, ptr := 1 }]

theorem chargesServer_readdedKey :
    ∃ s, AppState.new (.succeeding "now") (AppState.withDownstreamKeys [⟨"tp-1", 1⟩]) .empty
        = .ok s ∧
      Runs.Always step ChargesServer { state := s, inFlight := [] } readdedKey :=
  ⟨_, rfl, (always_chargesServer_iff (.succeeding "now")
    (AppState.withDownstreamKeys [⟨"tp-1", 1⟩]) .empty rfl readdedKey).mpr (by decide)⟩

/-- A key that is configured twice gets two entries.  The second acquisition is counted
on the second of them, and its failure is charged to the first. -/
theorem not_chargesServer :
    ∃ s t, AppState.new (.succeeding "now")
        (AppState.withDownstreamKeys [⟨"tp-1", 1⟩, ⟨"tp-1", 1⟩]) .empty = .ok s ∧
      Runs.run step { state := s, inFlight := [] } [.acquire, .acquire] = some t ∧
      { acquired := ⟨"tp-1"⟩, ptr := 1 } ∈ t.inFlight ∧
      (t.state.keyPool.reportFailure 0 ⟨"tp-1"⟩).1.keys
        = t.state.keyPool.keys.modify 0 PooledKey.countError ∧
      ¬ Runs.Always step ChargesServer { state := s, inFlight := [] } [.acquire, .acquire] := by
  refine ⟨_, _, rfl, rfl, by decide, by decide, fun h => ?_⟩
  exact absurd h.1.distinct (by decide)

end LivePool

end XiaomiProxy
