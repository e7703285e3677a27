import XiaomiProxy.Handlers.LivePool
import XiaomiProxy.Proxy.Selection

/-!
# The weights of a running pool

`acquire_key` adds the weights in rotation up in `u32`.  The weights come from the
configuration, from the table and from the admin, the last two as `i64` that are cast,
and nothing bounds their sum.

While all weights together stay below `2 ^ 32` the pool works as intended
(`weightsFit_iff`): no sum wraps, a call finds a key whenever a healthy key has weight,
and each such key has its turn in every cycle.  Of the steps only an addition or an
update by the admin can end this, and `always_weightsFit_iff` says exactly which.
-/

namespace XiaomiProxy

namespace KeyPool

open RoundRobin

/-- The weights of all entries, added up as numbers. -/
def weightSum (p : KeyPool) : ℕ := total weightOf p.keys.cells

/-- The weights of the pool add up, and the rotation works. -/
structure WeightsFit (p : KeyPool) : Prop where
  fits : p.weightSum < 2 ^ 32
  /-- Neither the total nor the accumulated weight of a prefix wraps. -/
  total : (totalWeight p.healthyKeys).toNat = p.healthyWeight
  accumulated : ∀ before after, p.healthyKeys = before ++ after →
    (totalWeight before).toNat = RoundRobin.total weightOf before
  /-- A call fails only if no healthy key has a weight. -/
  available : ∀ e, p.acquireKey.2 = .error e →
    ∀ k ∈ p.keys.cells, k.val.healthy = true → k.val.weight = 0
  /-- A healthy key with a weight is selected within one cycle of calls. -/
  rotates : ∀ k ∈ p.keys.cells, k.val.healthy = true → k.val.weight ≠ 0 →
    { returned := .ok ⟨k.val.key⟩, counted := [k.ptr] } ∈ p.selections p.healthyWeight

section Weights

variable {p : KeyPool}

theorem total_le_of_sublist {keys keys' : List (Cell PooledKey)} (h : keys.Sublist keys') :
    total weightOf keys ≤ total weightOf keys' :=
  (h.map weightOf).sum_le_sum fun _ _ => Nat.zero_le _

theorem healthyWeight_le_weightSum (p : KeyPool) : p.healthyWeight ≤ p.weightSum :=
  total_le_of_sublist List.filter_sublist

/-- **The rotation works as long as the weights add up.** -/
theorem weightsFit_iff (hindex : p.state.roundRobinIndex.toNat < 2 ^ 32) :
    p.WeightsFit ↔ p.weightSum < 2 ^ 32 := by
  refine ⟨fun h => h.fits, fun hfits => ?_⟩
  have hlt : p.healthyWeight < 2 ^ 32 := p.healthyWeight_le_weightSum.trans_lt hfits
  refine ⟨hfits, totalWeight_healthyKeys hlt, ?_, ?_, ?_⟩
  · intro before after hsplit
    have hpart : total weightOf before ≤ p.healthyWeight := by
      rw [healthyWeight, hsplit]
      exact total_le_of_sublist (List.sublist_append_left before after)
    rw [totalWeight_toNat, Nat.mod_eq_of_lt (hpart.trans_lt hlt)]
  · intro e herror k hk hhealthy
    by_contra hweight
    obtain ⟨acquired, hok⟩ :=
      (acquireKey_serves p hlt hindex).1.mpr ⟨k, hk, hhealthy, hweight⟩
    rw [hok] at herror
    cases herror
  · intro k hk hhealthy hweight
    have hpos : 0 < p.healthyWeight := healthyWeight_pos_iff.mpr ⟨k, hk, hhealthy, hweight⟩
    -- in the first cycle, a key is selected as often as its weight says
    have hcount := ((selections_proportional p hpos hlt hindex 0).1 k hk hhealthy).2.2 0
    rw [Nat.zero_add, List.drop_zero] at hcount
    rw [← List.count_pos_iff, hcount]
    exact (weightOf_pos_iff k).mpr hweight

end Weights

/-! ## What the operations make of the sum -/

section Sum

variable (p : KeyPool)

theorem weightSum_eq_column (p : KeyPool) :
    p.weightSum = (column (fun e => e.weight.toNat) p).sum := rfl

/-- The sum after a key was given a weight: the weight of the entry it had goes, if there
was one. -/
def reweighed (key : String) (weight : UInt32) (p : KeyPool) : ℕ :=
  p.weightSum - ((p.entryOf? key).map weightOf).getD 0 + weight.toNat

theorem weightSum_addKey (key : String) (weight : UInt32) :
    (p.addKey key weight).weightSum = p.reweighed key weight := by
  cases hentry : p.entryOf? key with
  | none =>
      rw [addKey_of_none hentry, reweighed, hentry, weightSum, SharedVec.push_cells,
        total, List.map_append, List.sum_append]
      rfl
  | some k =>
      have hsum : weightSum { p with keys := p.keys.modify k.ptr (PooledKey.reweigh weight) }
          + weightOf k = p.weightSum + weight.toNat :=
        p.keys.sum_modify (entryOf?_mem hentry) (PooledKey.reweigh weight)
          fun e => e.weight.toNat
      have hle : weightOf k ≤ p.weightSum :=
        List.le_sum_of_mem (List.mem_map_of_mem (entryOf?_mem hentry))
      rw [addKey_of_some hentry, reweighed, hentry, Option.map_some, Option.getD_some]
      omega

theorem weightSum_removeKey_le (key : String) :
    (p.removeKey key).weightSum ≤ p.weightSum :=
  total_le_of_sublist List.filter_sublist

theorem weightSum_new (configs : List DownstreamKeyConfig) :
    (new configs).weightSum = (configs.map fun c => c.weight.toNat).sum := by
  rw [weightSum_eq_column, column_new]
  rfl

/-- The total of a call that selects an entry is not zero. -/
theorem totalWeight_ne_zero_of_selectKey {k : Cell PooledKey} (h : p.selectKey = .ok k) :
    totalWeight p.healthyKeys ≠ 0 := by
  intro hzero
  unfold selectKey at h
  cases hkeys : p.healthyKeys with
  | nil =>
      rw [hkeys] at h
      cases h
  | cons first rest =>
      rw [hkeys] at h hzero
      simp [hzero] at h

theorem index_new (configs : List DownstreamKeyConfig) :
    (new configs).state.roundRobinIndex.toNat < 2 ^ 32 := Nat.two_pow_pos 32

/-- The stored index is a residue of a `u32`. -/
theorem index_acquireKey (hindex : p.state.roundRobinIndex.toNat < 2 ^ 32) :
    p.acquireKey.1.state.roundRobinIndex.toNat < 2 ^ 32 := by
  unfold acquireKey
  cases hselect : p.selectKey with
  | error e => exact hindex
  | ok k =>
      have hne := p.totalWeight_ne_zero_of_selectKey hselect
      have hpos : 0 < (totalWeight p.healthyKeys).toNat := by
        rw [Nat.pos_iff_ne_zero, ne_eq, ← UInt32.toNat_zero, UInt32.toNat_inj]
        exact hne
      have hmod := Nat.mod_lt (p.state.roundRobinIndex + 1).toNat hpos
      simp only [UInt64.toNat_mod, UInt32.toNat_toUInt64]
      exact hmod.trans (UInt32.toNat_lt _)

end Sum

end KeyPool

namespace LivePool

/-- The step keeps the sum of the weights below `2 ^ 32`, as far as it is one that can
raise it: an addition or an update whose statement succeeds. -/
def KeepsWeightsFit (s : LivePool) : LiveOp → Prop
  | .admin (.add reply payload) => reply.isOk = true →
      s.state.keyPool.reweighed (Str.trim payload.key) (asU32 payload.weight) < 2 ^ 32
  | .admin (.update reply key weight) => reply.isOk = true →
      s.state.keyPool.reweighed key (asU32 (max weight 1)) < 2 ^ 32
  | _ => True

instance (s : LivePool) : DecidablePred s.KeepsWeightsFit
  | .admin (.add _ _) | .admin (.update _ _ _) => inferInstanceAs (Decidable (_ → _))
  | .admin (.delete _ _) | .acquire | .reportSuccess _ | .reportFailure _ _
  | .recover _ => isTrue trivial

section Step

variable {s s' : LivePool} {op : LiveOp}

/-- No step takes the stored index out of `u32`. -/
theorem index_step (hindex : s.state.keyPool.state.roundRobinIndex.toNat < 2 ^ 32)
    (hstep : s.step op = some s') :
    s'.state.keyPool.state.roundRobinIndex.toNat < 2 ^ 32 := by
  rcases pool_step hstep with hsame | ⟨poolOp, hpool⟩
  · rw [hsame]
    exact hindex
  · rcases KeyPool.state_step hpool with hstate | hacquired
    · rw [hstate]
      exact hindex
    · rw [hacquired]
      exact s.state.keyPool.index_acquireKey hindex

/-- The calls of requests and tasks leave the weights as they are. -/
theorem weightSum_call (hstep : s.step op = some s') (hcall : ∀ op', op ≠ .admin op') :
    s'.state.keyPool.weightSum = s.state.keyPool.weightSum := by
  rw [KeyPool.weightSum_eq_column, KeyPool.weightSum_eq_column]
  cases op with
  | admin op => exact absurd rfl (hcall op)
  | acquire =>
      cases hstep
      exact congrArg List.sum (s.state.keyPool.column_acquireKey fun _ => rfl)
  | reportSuccess request =>
      obtain ⟨-, hstep⟩ := Option.ite_none_right_eq_some.mp hstep
      cases hstep
      exact congrArg List.sum
        (s.state.keyPool.column_reportSuccess (fun _ => rfl) request.acquired)
  | reportFailure now request =>
      obtain ⟨-, hstep⟩ := Option.ite_none_right_eq_some.mp hstep
      cases hstep
      exact congrArg List.sum
        (s.state.keyPool.column_reportFailure (fun _ => rfl) (fun _ => rfl) now request.acquired)
  | recover task =>
      obtain ⟨-, hstep⟩ := Option.ite_none_right_eq_some.mp hstep
      cases hstep
      exact congrArg List.sum (s.state.keyPool.column_recover (fun _ => rfl) task)

/-- **A step keeps the sum of the weights below `2 ^ 32` exactly if the condition
holds.** -/
theorem weightSum_step_iff (hfits : s.state.keyPool.weightSum < 2 ^ 32)
    (hstep : s.step op = some s') :
    s'.state.keyPool.weightSum < 2 ^ 32 ↔ s.KeepsWeightsFit op := by
  cases op with
  | admin op =>
      obtain ⟨state, hadmin, rfl⟩ := Option.map_eq_some_iff.mp hstep
      cases op with
      | add reply payload =>
          cases hadmin
          rcases reply with e | now
          · exact iff_of_true hfits nofun
          · rw [Admin.addDownstreamKey, Db.addDownstreamKey, Admin.afterStatement_ok,
              KeyPool.weightSum_addKey]
            exact ⟨fun h _ => h, fun h => h rfl⟩
      | update reply key weight =>
          cases hadmin
          rcases reply with e | now
          · exact iff_of_true hfits nofun
          · rw [Admin.updateDownstreamKey, Db.updateDownstreamKeyWeight,
              Admin.afterStatement_ok, KeyPool.weightSum_addKey]
            exact ⟨fun h _ => h, fun h => h rfl⟩
      | delete reply key =>
          cases hadmin
          refine iff_of_true ?_ trivial
          rcases reply with e | now
          · exact hfits
          · exact (s.state.keyPool.weightSum_removeKey_le key).trans_lt hfits
  | acquire => exact iff_of_true ((weightSum_call hstep (by simp)).trans_lt hfits) trivial
  | reportSuccess request =>
      exact iff_of_true ((weightSum_call hstep (by simp)).trans_lt hfits) trivial
  | reportFailure now request =>
      exact iff_of_true ((weightSum_call hstep (by simp)).trans_lt hfits) trivial
  | recover task => exact iff_of_true ((weightSum_call hstep (by simp)).trans_lt hfits) trivial

end Step

/-- The weights a start adds up: those of the configuration if it finds the table empty,
and the weights of the table, cast, otherwise. -/
def startWeight (config : Config) (db : Db) : ℕ :=
  if db.downstreamKeys.keys = [] then
    (config.downstreamKeys.map fun dk => dk.weight.toNat).sum
  else (db.downstreamKeys.rows.map fun dk => (asU32 dk.weight).toNat).sum

theorem weightSum_of_new {boot : Boot} {config : Config} {db : Db} {s : AppState}
    (h : AppState.new boot config db = .ok s) :
    s.keyPool.weightSum = startWeight config db := by
  rcases AppState.keyPool_of_new h with ⟨hkeys, hpool⟩ | ⟨rows, hkeys, hperm, -, hpool⟩ <;>
    rw [hpool, KeyPool.weightSum_new, startWeight]
  · rw [if_pos hkeys]
  · rw [if_neg hkeys, List.map_map]
    exact (hperm.map _).sum_eq

/-- **The weights of the pool fit in every state of every run exactly if they fit at the
start and every addition and update by the admin keeps them so.** -/
theorem always_weightsFit_iff (boot : Boot) (config : Config) (db : Db) {s : AppState}
    (h : AppState.new boot config db = .ok s) (ops : List LiveOp) :
    Runs.Always step (fun t => t.state.keyPool.WeightsFit) { state := s, inFlight := [] }
        ops ↔
      startWeight config db < 2 ^ 32 ∧
        Runs.Along step KeepsWeightsFit { state := s, inFlight := [] } ops := by
  have hstart : s.keyPool.state.roundRobinIndex.toNat < 2 ^ 32 := by
    rcases AppState.keyPool_of_new h with ⟨-, hpool⟩ | ⟨rows, -, -, -, hpool⟩ <;>
      rw [hpool]
    · exact KeyPool.index_new _
    · exact KeyPool.index_new _
  have hsum : Runs.Always step (fun t => t.state.keyPool.WeightsFit)
        { state := s, inFlight := [] } ops ↔
      Runs.Always step (fun t => t.state.keyPool.weightSum < 2 ^ 32)
        { state := s, inFlight := [] } ops :=
    Runs.always_congr (J := fun t => t.state.keyPool.state.roundRobinIndex.toNat < 2 ^ 32)
      (fun _ _ _ hindex hstep => index_step hindex hstep)
      (fun _ hindex => KeyPool.weightsFit_iff hindex) hstart ops
  rw [hsum, ← weightSum_of_new h]
  refine Runs.always_iff_along (fun _ _ _ _ hfits hstep => weightSum_step_iff hfits hstep) ?_
  intro t op _ hnone
  cases op with
  | admin op => cases op <;> cases hnone
  | acquire => cases hnone
  | reportSuccess request => exact trivial
  | reportFailure now request => exact trivial
  | recover task => exact trivial

/-- A weight of zero is raised to one; then a weight of `-2` is just small enough. -/
def nearLimit : List LiveOp :=
  [.admin (.update (.ok "now") "tp-1" 0), .admin (.add (.ok "now") ⟨"tp-2", -2⟩), .acquire]

theorem weightsFit_nearLimit :
    ∃ s, AppState.new (.succeeding "now") (AppState.withDownstreamKeys [⟨"tp-1", 5⟩]) .empty
        = .ok s ∧
      Runs.Always step (fun t => t.state.keyPool.WeightsFit) { state := s, inFlight := [] }
        nearLimit :=
  ⟨_, rfl, (always_weightsFit_iff (.succeeding "now")
    (AppState.withDownstreamKeys [⟨"tp-1", 5⟩]) .empty rfl nearLimit).mpr
    ⟨by decide, by decide⟩⟩

/-- Beside a key of weight 1, a weight of `-1` makes the total wrap to zero: no key can
be acquired any more, although both are healthy and have a weight. -/
theorem not_weightsFit :
    ∃ s t, AppState.new (.succeeding "now")
        (AppState.withDownstreamKeys [⟨"tp-1", 1⟩]) .empty = .ok s ∧
      Runs.run step { state := s, inFlight := [] } [.admin (.add (.ok "now") ⟨"tp-2", -1⟩)]
        = some t ∧
      (∀ k ∈ t.state.keyPool.keys.cells, k.val.healthy = true ∧ k.val.weight ≠ 0) ∧
      t.state.keyPool.acquireKey.2 = .error .noKeysAvailable ∧
      ¬ Runs.Always step (fun t => t.state.keyPool.WeightsFit) { state := s, inFlight := [] }
        [.admin (.add (.ok "now") ⟨"tp-2", -1⟩)] := by
  refine ⟨_, _, rfl, rfl, by decide, by decide, fun h => ?_⟩
  exact absurd (h.2 _ rfl).fits (by decide)

end LivePool

end XiaomiProxy
