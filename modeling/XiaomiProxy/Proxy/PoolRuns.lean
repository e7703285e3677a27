import XiaomiProxy.Lib.Runs
import XiaomiProxy.Proxy.KeyPool

/-!
# Runs of pool operations

The operations on a pool as the steps of a machine, in any order and at any
time.  `step` takes an operation whole, whether it returns or panics on the way;
`Returns` says that it returns.

Distinct keys stay distinct, because `addKey` looks for the key before it adds
an entry and no other operation adds or renames one.
-/

namespace XiaomiProxy

/-- An operation on the pool. -/
inductive PoolOp where
  | acquireKey
  | reportSuccess (acquired : AcquiredKey)
  | reportFailure (acquired : AcquiredKey)
  | recover (task : RecoveryTask)
  | addKey (key : String) (weight : UInt32)
  | removeKey (key : String)
  deriving DecidableEq, Repr

namespace KeyPool

/-- One operation at a time.  A recovery task fires only if it is pending. -/
def step (p : KeyPool) : Instant × PoolOp → Option KeyPool
  | (_, .acquireKey) => some p.acquireKey.1
  | (_, .reportSuccess acquired) => some (p.reportSuccess acquired)
  | (now, .reportFailure acquired) => some (p.reportFailure now acquired).1
  | (_, .recover task) => if task ∈ p.tasks then some (p.recover task) else none
  | (_, .addKey key weight) => some (p.addKey key weight)
  | (_, .removeKey key) => some (p.removeKey key)

/-- The step returns: if it reports a failure, the log line does not panic. -/
def Returns (p : KeyPool) : Instant × PoolOp → Prop
  | (now, .reportFailure acquired) => (p.reportFailure now acquired).2 = some ()
  | _ => True

instance decidableReturns (p : KeyPool) : DecidablePred p.Returns
  | (now, .reportFailure acquired) =>
      inferInstanceAs (Decidable ((p.reportFailure now acquired).2 = some ()))
  | (_, .acquireKey) | (_, .reportSuccess _) | (_, .recover _) | (_, .addKey _ _)
  | (_, .removeKey _) => isTrue trivial

theorem step_recover {p p' : KeyPool} {now : Instant} {task : RecoveryTask} :
    p.step (now, .recover task) = some p' ↔ task ∈ p.tasks ∧ p.recover task = p' := by
  unfold step
  split <;> simp_all

/-- Only an acquisition moves the index. -/
theorem state_step {p p' : KeyPool} {op : Instant × PoolOp} (hstep : p.step op = some p') :
    p'.state = p.state ∨ p' = p.acquireKey.1 := by
  obtain ⟨now, op⟩ := op
  cases op with
  | acquireKey =>
      cases hstep
      exact Or.inr rfl
  | reportSuccess acquired =>
      cases hstep
      rw [reportSuccess]
      split <;> exact Or.inl rfl
  | reportFailure acquired =>
      cases hstep
      rcases reportFailure_cases now p acquired with heq | ⟨ptr, f, tasks, -, heq⟩ <;> rw [heq]
      · exact Or.inl rfl
      · exact Or.inl rfl
  | recover task =>
      obtain ⟨-, rfl⟩ := step_recover.mp hstep
      exact Or.inl rfl
  | addKey key weight =>
      cases hstep
      rw [addKey]
      split <;> exact Or.inl rfl
  | removeKey key =>
      cases hstep
      exact Or.inl rfl

/-! ## What the operations do not write -/

section Column

variable {β : Type} {g : PooledKey → β} (p : KeyPool)

/-- What the entries have in one field, in their order. -/
def column (g : PooledKey → β) (p : KeyPool) : List β := p.keys.cells.map fun k => g k.val

/-- The entries of a new pool, in the order of the configuration. -/
theorem column_new (configs : List DownstreamKeyConfig) :
    column g (KeyPool.new configs) = configs.map fun c => g (.fresh c.key c.weight) := by
  have hvals : (KeyPool.new configs).keys.cells.map Cell.val
      = configs.map fun c => PooledKey.fresh c.key c.weight := SharedVec.ofList_vals _
  have hcolumn : column g (KeyPool.new configs)
      = ((KeyPool.new configs).keys.cells.map Cell.val).map g := by
    rw [List.map_map]
    rfl
  rw [hcolumn, hvals, List.map_map]
  rfl

/-- A store that does not write the field. -/
theorem column_modify (ptr : ℕ) {f : PooledKey → PooledKey} (hf : ∀ e, g (f e) = g e)
    (state : PoolState) (tasks : List RecoveryTask) :
    column g { keys := p.keys.modify ptr f, state, tasks } = column g p :=
  SharedVec.modify_map_attr p.keys ptr hf

theorem column_acquireKey (hcount : ∀ e, g (PooledKey.countRequest e) = g e) :
    column g p.acquireKey.1 = column g p := by
  rcases p.acquireKey_cases with ⟨e, -, heq⟩ | ⟨k, index, -, -, -, heq⟩
  · rw [heq]
  · rw [heq]
    exact p.column_modify k.ptr hcount _ _

theorem column_reportSuccess (hclear : ∀ e, g (PooledKey.clearErrors e) = g e)
    (acquired : AcquiredKey) : column g (p.reportSuccess acquired) = column g p := by
  cases hentry : p.entryOf? acquired.key with
  | none => rw [reportSuccess_of_none hentry]
  | some k =>
      rw [reportSuccess_of_some hentry]
      exact p.column_modify k.ptr hclear _ _

theorem column_reportFailure (hcount : ∀ e, g (PooledKey.countError e) = g e)
    (htrip : ∀ e, g (PooledKey.trip e) = g e) (now : Instant) (acquired : AcquiredKey) :
    column g (p.reportFailure now acquired).1 = column g p := by
  rcases reportFailure_cases now p acquired with heq | ⟨ptr, f, tasks, rfl | rfl, heq⟩ <;>
    rw [heq]
  · exact p.column_modify ptr hcount _ _
  · exact p.column_modify ptr (fun e => (htrip _).trans (hcount e)) _ _

theorem column_recover (hrevive : ∀ e, g (PooledKey.revive e) = g e)
    (task : RecoveryTask) : column g (p.recover task) = column g p :=
  p.column_modify task.ptr hrevive _ _

end Column

/-! ## The keys of a pool -/

/-- The keys of the entries, in their order. -/
def keyNames (p : KeyPool) : List String := p.keys.cells.map fun k => k.val.key

theorem keyNames_new (configs : List DownstreamKeyConfig) :
    (KeyPool.new configs).keyNames = configs.map DownstreamKeyConfig.key :=
  column_new (g := PooledKey.key) configs

section KeyNames

variable (p : KeyPool)

/-- A store that keeps the key. -/
theorem keyNames_modify (ptr : ℕ) {f : PooledKey → PooledKey}
    (hkey : ∀ e, (f e).key = e.key) (state : PoolState) (tasks : List RecoveryTask) :
    keyNames { keys := p.keys.modify ptr f, state, tasks } = p.keyNames :=
  p.column_modify (g := PooledKey.key) ptr hkey state tasks

theorem keyNames_acquireKey : p.acquireKey.1.keyNames = p.keyNames :=
  p.column_acquireKey (g := PooledKey.key) fun _ => rfl

theorem keyNames_reportSuccess (acquired : AcquiredKey) :
    (p.reportSuccess acquired).keyNames = p.keyNames :=
  p.column_reportSuccess (g := PooledKey.key) (fun _ => rfl) acquired

theorem keyNames_reportFailure (now : Instant) (acquired : AcquiredKey) :
    (p.reportFailure now acquired).1.keyNames = p.keyNames :=
  p.column_reportFailure (g := PooledKey.key) (fun _ => rfl) (fun _ => rfl) now acquired

theorem keyNames_recover (task : RecoveryTask) :
    (p.recover task).keyNames = p.keyNames :=
  p.column_recover (g := PooledKey.key) (fun _ => rfl) task

end KeyNames

/-! ## Distinct keys stay distinct -/

section DistinctKeys

variable {p : KeyPool}

/-- Pools with the same keys have distinct keys alike. -/
theorem DistinctKeys.of_keyNames_eq {p' : KeyPool} (h : p.DistinctKeys)
    (hkeys : p'.keyNames = p.keyNames) : p'.DistinctKeys := by
  rw [DistinctKeys, ← keyNames, hkeys]
  exact h

theorem DistinctKeys.addKey (h : p.DistinctKeys) (key : String) (weight : UInt32) :
    (p.addKey key weight).DistinctKeys := by
  cases hentry : p.entryOf? key with
  | none =>
      rw [addKey_of_none hentry, DistinctKeys, SharedVec.push_cells, List.map_append,
        List.nodup_append]
      refine ⟨h, List.nodup_singleton _, ?_⟩
      intro a ha b hb
      obtain ⟨k, hk, rfl⟩ := List.mem_map.mp ha
      rw [List.mem_singleton.mp hb]
      exact entryOf?_eq_none.mp hentry k hk
  | some existing =>
      rw [addKey_of_some hentry]
      exact h.of_keyNames_eq (p.keyNames_modify (f := PooledKey.reweigh weight)
        existing.ptr (fun _ => rfl) _ _)

theorem DistinctKeys.removeKey (h : p.DistinctKeys) (key : String) :
    (p.removeKey key).DistinctKeys :=
  (List.filter_sublist.map fun k : Cell PooledKey => k.val.key).nodup h

theorem DistinctKeys.step (h : p.DistinctKeys) {op : Instant × PoolOp} {p' : KeyPool}
    (hstep : p.step op = some p') : p'.DistinctKeys := by
  obtain ⟨now, op⟩ := op
  cases op with
  | acquireKey =>
      cases hstep
      exact h.of_keyNames_eq p.keyNames_acquireKey
  | reportSuccess acquired =>
      cases hstep
      exact h.of_keyNames_eq (p.keyNames_reportSuccess acquired)
  | reportFailure acquired =>
      cases hstep
      exact h.of_keyNames_eq (p.keyNames_reportFailure now acquired)
  | recover task =>
      obtain ⟨-, rfl⟩ := step_recover.mp hstep
      exact h.of_keyNames_eq (p.keyNames_recover task)
  | addKey key weight =>
      cases hstep
      exact h.addKey key weight
  | removeKey key =>
      cases hstep
      exact h.removeKey key

end DistinctKeys

end KeyPool

end XiaomiProxy
