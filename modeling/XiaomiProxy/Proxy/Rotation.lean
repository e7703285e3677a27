import XiaomiProxy.Lib.RoundRobin
import XiaomiProxy.Proxy.KeyPool

/-!
# The rotation of `acquire_key` is weighted round robin

`acquire_key` works on `u32` sums and on an index that was reduced modulo the
total of an earlier call.  As long as the weights in rotation add up to less
than `2 ^ 32`, none of that shows: the entry it selects is the owner of the slot
`index % total` on the cycle of the healthy weights, and the index it stores is
the next position modulo the same total (`selections_eq_turns`).  The share of
each key over a run of calls is then `RoundRobin.count_turns_bounds`.

What a call selects is read off its effect: the key it returns, and the entries on
which it counts a request.  Entries are told apart by their pointers, because the
calls themselves change the entries they select.
-/

namespace XiaomiProxy.KeyPool

open RoundRobin

/-- The weight of an entry, as a number. -/
def weightOf (k : Cell PooledKey) : ℕ := k.val.weight.toNat

/-- The weights in rotation, added up as numbers. -/
def healthyWeight (p : KeyPool) : ℕ := total weightOf p.healthyKeys

/-- What a call of `acquire_key` hands out: what it returns, and the entries whose
request counters it raises by one, by pointer. -/
structure Handout where
  returned : Except AppError AcquiredKey
  counted : List ℕ
  deriving DecidableEq

/-- The entries whose request counters are one higher in `p'` than in `p`. -/
def counted (p p' : KeyPool) : List (Cell PooledKey) :=
  p.keys.cells.filter fun k => ∃ k' ∈ p'.keys.cells,
    k'.ptr = k.ptr ∧ k'.val.requestCount = k.val.requestCount + 1

/-- What the next call hands out. -/
def handout (p : KeyPool) : Handout where
  returned := p.acquireKey.2
  counted := (p.counted p.acquireKey.1).map Cell.ptr

/-- What `n` consecutive calls of `acquire_key` hand out. -/
def selections : ℕ → KeyPool → List Handout
  | 0, _ => []
  | n + 1, p => p.handout :: selections n p.acquireKey.1

/-- A call that selects the entry `k`: it returns the key of `k`, and counts a request on
`k` and on no other entry. -/
def selecting (k : Cell PooledKey) : Handout where
  returned := .ok { key := k.val.key }
  counted := [k.ptr]

/-- The cycle of the rotation: the healthy entries and their weights. -/
def slots (p : KeyPool) : List (Handout × ℕ) :=
  p.healthyKeys.map fun k => (selecting k, weightOf k)

/-! ## The sums do not wrap -/

theorem foldl_weight_toNat (keys : List (Cell PooledKey)) (sum : UInt32) :
    (keys.foldl (fun sum k => sum + k.val.weight) sum).toNat
      = (sum.toNat + total weightOf keys) % 2 ^ 32 := by
  induction keys generalizing sum with
  | nil => simp [Nat.mod_eq_of_lt (UInt32.toNat_lt sum)]
  | cons k keys ih =>
      rw [List.foldl_cons, ih, UInt32.toNat_add, Nat.mod_add_mod, total_cons,
        weightOf, Nat.add_assoc]

theorem totalWeight_toNat (keys : List (Cell PooledKey)) :
    (totalWeight keys).toNat = total weightOf keys % 2 ^ 32 := by
  rw [totalWeight, foldl_weight_toNat, UInt32.toNat_zero, Nat.zero_add]

/-- The loop finds the owner of the slot as long as the accumulated weight stays
below `2 ^ 32`. -/
theorem scan_eq_pick (index : UInt64) (keys : List (Cell PooledKey))
    (accumulated : UInt32) (hle : accumulated.toNat ≤ index.toNat)
    (hlt : accumulated.toNat + total weightOf keys < 2 ^ 32) :
    scan index accumulated keys
      = pick weightOf keys (index.toNat - accumulated.toNat) := by
  induction keys generalizing accumulated with
  | nil => rfl
  | cons k keys ih =>
      rw [total_cons] at hlt
      have hsum : (accumulated + k.val.weight).toNat
          = accumulated.toNat + weightOf k := by
        rw [UInt32.toNat_add, weightOf]
        exact Nat.mod_eq_of_lt (by rw [weightOf] at hlt; omega)
      -- the source compares prefix sums, `pick` what is left of the index
      have htest : index < (accumulated + k.val.weight).toUInt64 ↔
          index.toNat - accumulated.toNat < weightOf k := by
        rw [UInt64.lt_iff_toNat_lt, UInt32.toNat_toUInt64, hsum]
        omega
      rw [scan, pick]
      by_cases h : index.toNat - accumulated.toNat < weightOf k
      · rw [if_pos (htest.mpr h), if_pos h]
      · rw [if_neg (mt htest.mp h), if_neg h,
          ih _ (by rw [hsum]; omega) (by rw [hsum]; omega), hsum, Nat.sub_add_eq]

/-! ## One call -/

section Step

variable {p : KeyPool}

theorem totalWeight_healthyKeys (hlt : p.healthyWeight < 2 ^ 32) :
    (totalWeight p.healthyKeys).toNat = p.healthyWeight := by
  rw [totalWeight_toNat]
  exact Nat.mod_eq_of_lt hlt

/-- The loop of the call looks for the owner of the current slot. -/
theorem scan_index (hlt : p.healthyWeight < 2 ^ 32) :
    scan (p.state.roundRobinIndex % (totalWeight p.healthyKeys).toUInt64) 0 p.healthyKeys
      = pick weightOf p.healthyKeys
          (p.state.roundRobinIndex.toNat % p.healthyWeight) := by
  have hindex : (p.state.roundRobinIndex
      % (totalWeight p.healthyKeys).toUInt64).toNat
      = p.state.roundRobinIndex.toNat % p.healthyWeight := by
    rw [UInt64.toNat_mod, UInt32.toNat_toUInt64, totalWeight_healthyKeys hlt]
  have hcycle : (0 : UInt32).toNat + total weightOf p.healthyKeys < 2 ^ 32 := by
    rw [UInt32.toNat_zero, Nat.zero_add]
    exact hlt
  have hscan := scan_eq_pick (p.state.roundRobinIndex
    % (totalWeight p.healthyKeys).toUInt64) p.healthyKeys 0 (Nat.zero_le _) hcycle
  rwa [hindex, UInt32.toNat_zero, Nat.sub_zero] at hscan

/-- **The selection is the owner of the current slot.**  The fallback after the
loop is never reached, because a residue below the total has an owner. -/
theorem selectKey_eq_pick (hpos : 0 < p.healthyWeight)
    (hlt : p.healthyWeight < 2 ^ 32) :
    ∃ k, pick weightOf p.healthyKeys
        (p.state.roundRobinIndex.toNat % p.healthyWeight) = some k ∧
      p.selectKey = .ok k := by
  have hne : totalWeight p.healthyKeys ≠ 0 := by
    intro h
    have htotal := totalWeight_healthyKeys hlt
    rw [h, UInt32.toNat_zero] at htotal
    omega
  obtain ⟨k, hk⟩ := exists_pick_of_lt (w := weightOf) (l := p.healthyKeys)
    (Nat.mod_lt p.state.roundRobinIndex.toNat hpos)
  refine ⟨k, hk, ?_⟩
  have hscan := scan_index hlt
  rw [healthyWeight, hk] at hscan
  unfold selectKey
  cases hkeys : p.healthyKeys with
  | nil => simp [healthyWeight, hkeys] at hpos
  | cons first rest =>
      rw [hkeys] at hscan hne
      simp only [if_neg hne, hscan, Option.getD_some]

/-- A store that touches neither health nor weights leaves the cycle alone. -/
theorem slots_modify (ptr : ℕ) {f : PooledKey → PooledKey} (hkey : ∀ k, (f k).key = k.key)
    (hhealthy : ∀ k, (f k).healthy = k.healthy) (hweight : ∀ k, (f k).weight = k.weight)
    (state : PoolState) (tasks : List RecoveryTask) :
    slots { keys := p.keys.modify ptr f, state, tasks } = slots p := by
  rw [slots, slots, healthyKeys, healthyKeys, SharedVec.modify_cells,
    List.filter_map, List.map_map]
  have htest : (fun k : Cell PooledKey => k.val.healthy) ∘ Cell.update ptr f
      = fun k : Cell PooledKey => k.val.healthy := by
    funext k
    exact Cell.update_attr hhealthy ptr k
  rw [htest]
  refine List.map_congr_left ?_
  intro k _
  rw [Function.comp_apply, selecting, selecting, Cell.update_ptr, weightOf, weightOf,
    Cell.update_attr hkey ptr k, Cell.update_attr hweight ptr k]

theorem slots_total : total Prod.snd p.slots = p.healthyWeight := by
  rw [slots, total_map, healthyWeight]
  rfl

/-- A request counted through the pointer of an entry is counted on that entry only. -/
theorem counted_modify {k : Cell PooledKey} (hk : k ∈ p.keys.cells) (state : PoolState)
    (tasks : List RecoveryTask) :
    p.counted { keys := p.keys.modify k.ptr PooledKey.countRequest, state, tasks } = [k] := by
  have hnodup : p.keys.cells.Nodup := List.Nodup.of_map _ p.keys.ptr_nodup
  have htest : ∀ l ∈ p.keys.cells, (∃ k' ∈ (p.keys.modify k.ptr PooledKey.countRequest).cells,
      k'.ptr = l.ptr ∧ k'.val.requestCount = l.val.requestCount + 1) ↔ l = k := by
    intro l hl
    constructor
    · rintro ⟨k', hk', hptr, hcount⟩
      obtain ⟨d, hd, rfl⟩ := SharedVec.mem_modify.mp hk'
      rw [Cell.update_ptr] at hptr
      obtain rfl := p.keys.eq_of_ptr_eq hd hl hptr
      by_contra hne
      -- an entry that is not the one stored into keeps its counter
      rw [Cell.update_of_ne _ fun heq => hne (p.keys.eq_of_ptr_eq hd hk heq)] at hcount
      exact absurd (left_eq_add.mp hcount) (by decide)
    · rintro rfl
      exact ⟨_, SharedVec.mem_modify.mpr ⟨l, hl, rfl⟩, Cell.update_ptr .., by
        rw [Cell.update_self]
        rfl⟩
  have hfilter : p.counted
      { keys := p.keys.modify k.ptr PooledKey.countRequest, state, tasks }
      = p.keys.cells.filter (· = k) := by
    refine List.filter_congr fun l hl => ?_
    rw [decide_eq_decide]
    exact htest l hl
  rw [hfilter, List.filter_eq, List.count_eq_one_of_mem hnodup hk, List.replicate_one]

/-- **What a call hands out is what it has selected.** -/
theorem handout_of_selectKey {k : Cell PooledKey} (h : p.selectKey = .ok k) :
    p.handout = selecting k := by
  rw [handout, acquireKey, h]
  simp only [counted_modify (mem_of_selectKey h).1, List.map_cons, List.map_nil]
  rfl

/-- What a call does to the rotation: it hands out the owner of the current slot,
moves to the next one and leaves the cycle alone. -/
theorem acquireKey_rotates (hpos : 0 < p.healthyWeight)
    (hlt : p.healthyWeight < 2 ^ 32)
    (hindex : p.state.roundRobinIndex.toNat < 2 ^ 32) :
    (pick Prod.snd p.slots
        (p.state.roundRobinIndex.toNat % p.healthyWeight)).map Prod.fst
        = some p.handout ∧
      p.acquireKey.1.slots = p.slots ∧
      p.acquireKey.1.state.roundRobinIndex.toNat
        = (p.state.roundRobinIndex.toNat + 1) % p.healthyWeight := by
  obtain ⟨k, hpick, hselect⟩ := selectKey_eq_pick hpos hlt
  have hslot : pick Prod.snd p.slots
      (p.state.roundRobinIndex.toNat % p.healthyWeight)
      = some (selecting k, weightOf k) := by
    rw [slots, pick_map]
    exact congrArg (Option.map _) hpick
  refine ⟨by rw [hslot, handout_of_selectKey hselect]; rfl, ?_, ?_⟩
  · rw [acquireKey, hselect]
    exact slots_modify (f := PooledKey.countRequest) k.ptr (fun _ => rfl)
      (fun _ => rfl) (fun _ => rfl) _ _
  · rw [acquireKey, hselect]
    -- the index is below `2 ^ 32`, so adding one does not wrap
    change ((p.state.roundRobinIndex + 1)
      % (totalWeight p.healthyKeys).toUInt64).toNat = _
    rw [UInt64.toNat_mod, UInt32.toNat_toUInt64, totalWeight_healthyKeys hlt,
      UInt64.toNat_add]
    congr 1
    exact Nat.mod_eq_of_lt (by simp; omega)

end Step

/-! ## Runs of calls -/

/-- **The refinement.**  A run of calls hands out the owners of consecutive slots
of the cycle, whatever the index it starts from. -/
theorem selections_eq_turns {p : KeyPool} (hpos : 0 < p.healthyWeight)
    (hlt : p.healthyWeight < 2 ^ 32)
    (hindex : p.state.roundRobinIndex.toNat < 2 ^ 32) (n : ℕ) :
    (turns Prod.snd p.slots p.state.roundRobinIndex.toNat n).map (Option.map Prod.fst)
      = (p.selections n).map some := by
  induction n generalizing p with
  | zero => rfl
  | succ n ih =>
      obtain ⟨hselect, hslots, hnext⟩ := acquireKey_rotates hpos hlt hindex
      have hweight : p.acquireKey.1.healthyWeight = p.healthyWeight := by
        rw [← slots_total, ← slots_total, hslots]
      have hmod := Nat.mod_lt (p.state.roundRobinIndex.toNat + 1) hpos
      rw [selections, List.map_cons, ← hselect,
        ← ih (by rw [hweight]; exact hpos) (by rw [hweight]; exact hlt)
          (by rw [hnext]; omega),
        hslots, hnext, turns_succ, slots_total, List.map_cons]

/-- Entries are told apart by what a call that selects them hands out. -/
theorem slots_fst_nodup (p : KeyPool) : (p.slots.map Prod.fst).Nodup := by
  have hptr : (p.slots.map fun slot => slot.1.counted).Nodup := by
    rw [slots, List.map_map]
    have hsingle : (p.healthyKeys.map Cell.ptr).map (fun ptr => [ptr])
        = p.healthyKeys.map ((fun slot : Handout × ℕ => slot.1.counted)
          ∘ fun k => (selecting k, weightOf k)) := by
      rw [List.map_map]
      rfl
    rw [← hsingle]
    exact ((List.filter_sublist.map Cell.ptr).nodup p.keys.ptr_nodup).map
      List.singleton_injective
  refine List.Nodup.of_map Handout.counted ?_
  rw [List.map_map]
  exact hptr

theorem mem_slots {p : KeyPool} {k : Cell PooledKey} (hk : k ∈ p.keys.cells)
    (hhealthy : k.val.healthy = true) : (selecting k, weightOf k) ∈ p.slots :=
  List.mem_map.mpr ⟨k, List.mem_filter.mpr ⟨hk, hhealthy⟩, rfl⟩

/-- How often an entry is selected is how often its slots are visited: a handout
names one slot owner. -/
theorem count_map_fst {l : List (Handout × ℕ)} (hnodup : (l.map Prod.fst).Nodup)
    {a : Handout × ℕ} (ha : a ∈ l) {visited : List (Option (Handout × ℕ))}
    (hvisited : ∀ x ∈ visited, ∃ b ∈ l, x = some b) :
    (visited.map (Option.map Prod.fst)).count (some a.1)
      = visited.count (some a) := by
  rw [List.count, List.countP_map, List.count]
  refine List.countP_congr ?_
  intro x hx
  obtain ⟨b, hb, rfl⟩ := hvisited x hx
  have hiff : b.1 = a.1 ↔ b = a :=
    ⟨List.inj_on_of_nodup_map hnodup hb ha, congrArg Prod.fst⟩
  simp [hiff]

/-- How often a run of calls selects an entry is how often it visits its slots. -/
theorem count_selections {p : KeyPool} (hpos : 0 < p.healthyWeight)
    (hlt : p.healthyWeight < 2 ^ 32) (hindex : p.state.roundRobinIndex.toNat < 2 ^ 32)
    {k : Cell PooledKey} (hmem : (selecting k, weightOf k) ∈ p.slots) (m n : ℕ) :
    ((p.selections (m + n)).drop m).count (selecting k)
      = (turns Prod.snd p.slots (p.state.roundRobinIndex.toNat + m) n).count
          (some (selecting k, weightOf k)) := by
  have htotal : 0 < total Prod.snd p.slots := by rwa [slots_total]
  have hlen : ((turns Prod.snd p.slots p.state.roundRobinIndex.toNat m).map
      (Option.map Prod.fst)).length = m := by
    simp [turns]
  have hdrop : ((p.selections (m + n)).drop m).map some
      = (turns Prod.snd p.slots (p.state.roundRobinIndex.toNat + m) n).map
          (Option.map Prod.fst) := by
    rw [List.map_drop, ← selections_eq_turns hpos hlt hindex, turns_add, List.map_append,
      List.drop_left' hlen]
  rw [← List.count_map_of_injective _ some (Option.some_injective _), hdrop]
  refine count_map_fst p.slots_fst_nodup hmem fun x hx => ?_
  obtain ⟨b, hb, -, rfl⟩ := exists_of_mem_turns htotal hx
  exact ⟨b, hb, rfl⟩

/-- Weighted round robin is exactly proportional: whatever the index it starts
from, a run of `n` calls selects a healthy entry of weight `w` at least
`⌊n / W⌋ * w` and at most `⌈n / W⌉ * w` times, and exactly `w` times in any
window of `W` calls; it only ever selects healthy entries.  A call that selects an
entry returns its key and counts a request on it and on no other entry. -/
theorem selections_proportional (p : KeyPool) (hpos : 0 < p.healthyWeight)
    (hlt : p.healthyWeight < 2 ^ 32)
    (hindex : p.state.roundRobinIndex.toNat < 2 ^ 32) (n : ℕ) :
    (∀ k ∈ p.keys.cells, k.val.healthy = true →
      n / p.healthyWeight * k.val.weight.toNat
          ≤ (p.selections n).count { returned := .ok ⟨k.val.key⟩, counted := [k.ptr] } ∧
        (p.selections n).count { returned := .ok ⟨k.val.key⟩, counted := [k.ptr] }
          ≤ n ⌈/⌉ p.healthyWeight * k.val.weight.toNat ∧
        ∀ m, ((p.selections (m + p.healthyWeight)).drop m).count
            { returned := .ok ⟨k.val.key⟩, counted := [k.ptr] }
          = k.val.weight.toNat) ∧
      ∀ x ∈ p.selections n, ∃ k ∈ p.keys.cells, k.val.healthy = true ∧
        x = { returned := .ok ⟨k.val.key⟩, counted := [k.ptr] } := by
  have htotal : 0 < total Prod.snd p.slots := by rwa [slots_total]
  have hnodup : p.slots.Nodup := List.Nodup.of_map _ p.slots_fst_nodup
  refine ⟨fun k hk hhealthy => ?_, fun x hx => ?_⟩
  · have hmem := mem_slots hk hhealthy
    have hrun := count_selections hpos hlt hindex hmem 0 n
    rw [Nat.zero_add, List.drop_zero, Nat.add_zero] at hrun
    obtain ⟨hlo, hhi⟩ := count_turns_bounds Prod.snd hnodup htotal hmem
      p.state.roundRobinIndex.toNat n
    rw [← hrun, slots_total] at hlo hhi
    refine ⟨hlo, hhi, fun m => ?_⟩
    have hwindow := count_selections hpos hlt hindex hmem m p.healthyWeight
    rw [← slots_total, count_turns_cycle Prod.snd hnodup hmem, slots_total] at hwindow
    exact hwindow
  · have hx' : some x ∈ (p.selections n).map some := List.mem_map_of_mem hx
    rw [← selections_eq_turns hpos hlt hindex] at hx'
    obtain ⟨y, hy, heq⟩ := List.mem_map.mp hx'
    obtain ⟨b, hb, -, rfl⟩ := exists_of_mem_turns htotal hy
    obtain ⟨k, hk, rfl⟩ := List.mem_map.mp hb
    obtain ⟨hmem, hhealthy⟩ := List.mem_filter.mp hk
    exact ⟨k, hmem, hhealthy, (Option.some.inj heq).symm⟩

/-- Seven calls on two keys of weights 2 and 1. -/
theorem selections_two_keys :
    4 ≤ ((new [⟨"tp-1", 2⟩, ⟨"tp-2", 1⟩]).selections 7).count
        { returned := .ok ⟨"tp-1"⟩, counted := [0] } ∧
      ((new [⟨"tp-1", 2⟩, ⟨"tp-2", 1⟩]).selections 7).count
        { returned := .ok ⟨"tp-1"⟩, counted := [0] } ≤ 6 := by
  obtain ⟨hlo, hhi, -⟩ := (selections_proportional
    (new [⟨"tp-1", 2⟩, ⟨"tp-2", 1⟩]) (by decide) (by decide) (by decide) 7).1
    ⟨0, PooledKey.fresh "tp-1" 2⟩ (by decide) rfl
  exact ⟨hlo, hhi⟩

end XiaomiProxy.KeyPool
