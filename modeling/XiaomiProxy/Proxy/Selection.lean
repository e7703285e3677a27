import XiaomiProxy.Proxy.Rotation

/-!
# What one call of `acquire_key` selects

A call succeeds exactly when some entry in rotation has a weight.  The entry it serves
from is the one whose interval of cumulative weights, in list order, contains the stored
index modulo the total: its request counter goes up by one, the index moves to the next
residue, and nothing else changes.  The loop always finds that entry, so the fallback
after it is never taken.

All of this is one call, on any pool whose weights in rotation add up to less than
`2 ^ 32`; `selectKey_eq_pick` has done the arithmetic.
-/

namespace XiaomiProxy.KeyPool

open RoundRobin

/-- The slot of the cycle the next call looks at. -/
def slot (p : KeyPool) : ℕ := p.state.roundRobinIndex.toNat % p.healthyWeight

/-- The call that leads from `p` to `p'` was served by the entry `k`. -/
structure Serves (p p' : KeyPool) (acquired : AcquiredKey) (k : Cell PooledKey) :
    Prop where
  /-- A healthy entry with a weight, and its key is the one acquired. -/
  mem : k ∈ p.keys.cells
  healthy : k.val.healthy = true
  weight_ne : k.val.weight ≠ 0
  key : acquired.key = k.val.key
  /-- The slot lies in the interval of the entry. -/
  owns : ∃ before after, p.healthyKeys = before ++ k :: after ∧
    total weightOf before ≤ p.slot ∧ p.slot < total weightOf before + weightOf k
  /-- The loop finds the entry, so the fallback is not taken. -/
  scanned : scan (p.state.roundRobinIndex % (totalWeight p.healthyKeys).toUInt64) 0
    p.healthyKeys = some k
  /-- One more request on the entry, the next residue, and nothing else. -/
  keys : p'.keys.cells = p.keys.cells.map fun c =>
    if c.ptr = k.ptr then
      { c with val := { c.val with requestCount := c.val.requestCount + 1 } }
    else c
  next : p'.keys.next = p.keys.next
  index : p'.state.roundRobinIndex.toNat
    = (p.state.roundRobinIndex.toNat + 1) % p.healthyWeight
  tasks : p'.tasks = p.tasks

section Weight

variable {p : KeyPool}

theorem weightOf_pos_iff (k : Cell PooledKey) : 0 < weightOf k ↔ k.val.weight ≠ 0 := by
  rw [weightOf, Nat.pos_iff_ne_zero, ne_eq, ne_eq, ← UInt32.toNat_inj, UInt32.toNat_zero]

/-- What an entry adds to the weight in rotation. -/
def shareOf (e : PooledKey) : ℕ := if e.healthy then e.weight.toNat else 0

theorem healthyWeight_eq_sum (p : KeyPool) :
    p.healthyWeight = (p.keys.cells.map fun k => shareOf k.val).sum := by
  have hsum := List.sum_map_ite (fun k : Cell PooledKey => k.val.healthy = true) weightOf
    (fun _ => 0) p.keys.cells
  rw [List.map_const', List.sum_replicate, smul_zero, Nat.add_zero] at hsum
  simp only [Bool.decide_eq_true] at hsum
  exact hsum.symm

/-- There is weight in rotation exactly if some healthy entry has a weight. -/
theorem healthyWeight_pos_iff :
    0 < p.healthyWeight ↔ ∃ k ∈ p.keys.cells, k.val.healthy = true ∧ k.val.weight ≠ 0 := by
  rw [healthyWeight, total, Nat.pos_iff_ne_zero, ne_eq, List.sum_eq_zero_iff]
  constructor
  · intro h
    push Not at h
    obtain ⟨n, hn, hne⟩ := h
    obtain ⟨k, hk, rfl⟩ := List.mem_map.mp hn
    obtain ⟨hmem, hhealthy⟩ := List.mem_filter.mp hk
    exact ⟨k, hmem, hhealthy, (weightOf_pos_iff k).mp (Nat.pos_of_ne_zero hne)⟩
  · rintro ⟨k, hmem, hhealthy, hweight⟩ hzero
    have hk : k ∈ p.healthyKeys := List.mem_filter.mpr ⟨hmem, hhealthy⟩
    have hpos := (weightOf_pos_iff k).mpr hweight
    rw [hzero _ (List.mem_map_of_mem hk)] at hpos
    exact absurd hpos (lt_irrefl 0)

/-- Without weight in rotation there is nothing to select. -/
theorem selectKey_of_weightless (hlt : p.healthyWeight < 2 ^ 32)
    (hzero : p.healthyWeight = 0) : p.selectKey = .error .noKeysAvailable := by
  have htotal := totalWeight_healthyKeys hlt
  rw [hzero] at htotal
  have hweightless : totalWeight p.healthyKeys = 0 := UInt32.toNat_inj.mp htotal
  unfold selectKey
  cases hkeys : p.healthyKeys with
  | nil => rfl
  | cons first rest =>
      rw [hkeys] at hweightless
      simp only [if_pos hweightless]

/-- A call that succeeds is served by a healthy entry with a weight. -/
theorem exists_server {p' : KeyPool} {acquired : AcquiredKey}
    (hlt : p.healthyWeight < 2 ^ 32) (h : p.acquireKey = (p', .ok acquired)) :
    ∃ k ∈ p.keys.cells, k.val.healthy = true ∧ k.val.weight ≠ 0 ∧
      acquired.key = k.val.key ∧
      p'.keys = p.keys.modify k.ptr PooledKey.countRequest := by
  rcases Nat.eq_zero_or_pos p.healthyWeight with hzero | hpos
  · rw [acquireKey, selectKey_of_weightless hlt hzero] at h
    cases congrArg Prod.snd h
  · obtain ⟨k, hpick, hselect⟩ := selectKey_eq_pick hpos hlt
    obtain ⟨hmem, hhealthy⟩ := mem_of_selectKey hselect
    rw [acquireKey, hselect] at h
    obtain ⟨rfl, hacquired⟩ := Prod.mk.inj h
    refine ⟨k, hmem, hhealthy, (weightOf_pos_iff k).mp (weight_pos_of_pick hpick), ?_, rfl⟩
    rw [← Except.ok.inj hacquired]

end Weight

/-- **The selection is sound.**  A call succeeds exactly if some healthy entry has a
weight; it is then served by the entry whose interval contains the slot, and a call that
fails changes nothing. -/
theorem acquireKey_serves (p : KeyPool) (hlt : p.healthyWeight < 2 ^ 32)
    (hindex : p.state.roundRobinIndex.toNat < 2 ^ 32) :
    ((∃ acquired, p.acquireKey.2 = .ok acquired) ↔
        ∃ k ∈ p.keys.cells, k.val.healthy = true ∧ k.val.weight ≠ 0) ∧
      (∀ p' acquired, p.acquireKey = (p', .ok acquired) → ∃ k, Serves p p' acquired k) ∧
      ∀ p' e, p.acquireKey = (p', .error e) → p' = p := by
  rw [← healthyWeight_pos_iff]
  rcases Nat.eq_zero_or_pos p.healthyWeight with hzero | hpos
  · have hacquire : p.acquireKey = (p, .error .noKeysAvailable) := by
      rw [acquireKey, selectKey_of_weightless hlt hzero]
    rw [hacquire]
    refine ⟨iff_of_false (by simp) (by omega), fun p' acquired h => ?_, ?_⟩
    · cases congrArg Prod.snd h
    · intro p' e h
      exact (congrArg Prod.fst h).symm
  · obtain ⟨k, hpick, hselect⟩ := selectKey_eq_pick hpos hlt
    obtain ⟨-, -, hnext⟩ := acquireKey_rotates hpos hlt hindex
    obtain ⟨hmem, hhealthy⟩ := mem_of_selectKey hselect
    have hserves : Serves p p.acquireKey.1 { key := k.val.key } k :=
      { mem := hmem
        healthy := hhealthy
        weight_ne := (weightOf_pos_iff k).mp (weight_pos_of_pick hpick)
        key := rfl
        owns := exists_interval_of_pick hpick
        scanned := (scan_index hlt).trans hpick
        keys := by
          rw [acquireKey, hselect]
          rfl
        next := by
          rw [acquireKey, hselect]
          rfl
        index := hnext
        tasks := by rw [acquireKey, hselect] }
    have hok : p.acquireKey.2 = .ok { key := k.val.key } := by
      rw [acquireKey, hselect]
    refine ⟨iff_of_true ⟨_, hok⟩ hpos, fun p' acquired h => ⟨k, ?_⟩, ?_⟩
    · rw [h] at hserves hok
      rwa [Except.ok.inj hok]
    · intro p' e h
      rw [h] at hok
      cases hok

/-- Two keys, the first of them without weight: the second one serves. -/
theorem acquireKey_serves_second :
    ∃ p' k, (new [⟨"tp-1", 0⟩, ⟨"tp-2", 3⟩]).acquireKey = (p', .ok ⟨"tp-2"⟩) ∧
      Serves (new [⟨"tp-1", 0⟩, ⟨"tp-2", 3⟩]) p' ⟨"tp-2"⟩ k := by
  obtain ⟨-, hserves, -⟩ := acquireKey_serves (new [⟨"tp-1", 0⟩, ⟨"tp-2", 3⟩])
    (by decide) (by decide)
  obtain ⟨k, hk⟩ := hserves _ ⟨"tp-2"⟩ rfl
  exact ⟨_, k, rfl, hk⟩

end XiaomiProxy.KeyPool
