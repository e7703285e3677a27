import XiaomiProxy.Proxy.RetryAccounting
import XiaomiProxy.Proxy.Selection

/-!
# The breaker bounds a retry loop

Every request of a call but the last one fails, and every failure is counted against the
entry that served the request.  An entry in rotation with `e` consecutive errors is
tripped by `3 - e` failures and serves no request after that.  A call can therefore
issue no more requests than the failures that are left over all entries in rotation, and
no more on one key than are left for its entry.

`budget` adds up the failures that are left, over the entries whose key satisfies a test;
a request on such a key costs one of them (`budget_reportFailure`).  The bounds of the
call are the budget of all keys and the budget of one.
-/

namespace XiaomiProxy.Retry

open KeyPool (DistinctKeys weightOf shareOf)

/-- The failures that are left before the breaker trips an entry in rotation. -/
def failuresLeft (e : PooledKey) : ℕ :=
  if e.healthy = true ∧ e.weight ≠ 0 then 3 - e.consecutiveErrors.toNat else 0

/-- The failures that are left on the keys that satisfy the test. -/
def budget (test : String → Bool) (p : KeyPool) : ℕ :=
  (p.keys.cells.map fun k => if test k.val.key then failuresLeft k.val else 0).sum

/-- The pools the bound is about: distinct keys, weights in rotation that add up to less
than `2 ^ 32`, and no healthy entry at the threshold. -/
structure Bounded (p : KeyPool) : Prop where
  distinct : p.DistinctKeys
  weight_lt : p.healthyWeight < 2 ^ 32
  errors_lt : ∀ k ∈ p.keys.cells, k.val.healthy = true → k.val.consecutiveErrors < 3

section Attempt

variable {p p' : KeyPool} {acquired : AcquiredKey} (test : String → Bool)

/-- Counting a request changes neither the budget nor the bounds. -/
theorem Bounded.acquireKey (h : Bounded p) (hacquire : p.acquireKey = (p', .ok acquired)) :
    Bounded p' ∧ budget test p' = budget test p ∧
      ∃ k ∈ p'.keys.cells, k.val.healthy = true ∧ k.val.weight ≠ 0 ∧
        acquired.key = k.val.key := by
  obtain ⟨k, hmem, hhealthy, hweight, hkey, hkeys⟩ :=
    KeyPool.exists_server h.weight_lt hacquire
  have hnames := p.keyNames_acquireKey
  rw [hacquire] at hnames
  refine ⟨⟨h.distinct.of_keyNames_eq hnames, ?_, ?_⟩, ?_, ?_⟩
  · rw [KeyPool.healthyWeight_eq_sum, hkeys,
      SharedVec.modify_map_attr (f := PooledKey.countRequest) (g := shareOf) p.keys k.ptr
        fun _ => rfl,
      ← KeyPool.healthyWeight_eq_sum]
    exact h.weight_lt
  · rw [hkeys]
    refine SharedVec.forall_mem_modify.mpr ?_
    intro l hl
    rw [Cell.update_attr (f := PooledKey.countRequest) (g := PooledKey.healthy)
        fun _ => rfl,
      Cell.update_attr (f := PooledKey.countRequest) (g := PooledKey.consecutiveErrors)
        fun _ => rfl]
    exact h.errors_lt l hl
  · rw [budget, hkeys, SharedVec.modify_map_attr (f := PooledKey.countRequest)
      (g := fun e => if test e.key then failuresLeft e else 0) p.keys k.ptr fun _ => rfl]
    rfl
  · refine ⟨k.update k.ptr PooledKey.countRequest, ?_, ?_, ?_, ?_⟩
    · rw [hkeys]
      exact SharedVec.mem_modify.mpr ⟨k, hmem, rfl⟩
    · rwa [Cell.update_self]
    · rwa [Cell.update_self]
    · rwa [Cell.update_self]

/-- What a failure makes of the entry it is counted against. -/
theorem exists_failed (now : Instant) (h : Bounded p) {k : Cell PooledKey}
    (hmem : k ∈ p.keys.cells) (hhealthy : k.val.healthy = true)
    (hweight : k.val.weight ≠ 0) (hkey : acquired.key = k.val.key) :
    ∃ f : PooledKey → PooledKey,
      (p.reportFailure now acquired).1.keys = p.keys.modify k.ptr f ∧
        (f k.val).key = k.val.key ∧ failuresLeft (f k.val) + 1 = failuresLeft k.val ∧
        shareOf (f k.val) ≤ shareOf k.val ∧
        ((f k.val).healthy = true → (f k.val).consecutiveErrors < 3) := by
  have herrors := h.errors_lt k hmem hhealthy
  have hentry : p.entryOf? acquired.key = some k := by
    cases hfound : p.entryOf? acquired.key with
    | none => exact absurd hkey.symm (KeyPool.entryOf?_eq_none.mp hfound k hmem)
    | some l =>
        have hl : l.val.key = k.val.key := by
          rw [KeyPool.entryOf?_key hfound, hkey]
        rw [h.distinct.eq_of_key_eq (KeyPool.entryOf?_mem hfound) hmem hl]
  have hnat : k.val.consecutiveErrors.toNat < 3 := by
    simpa using UInt32.lt_iff_toNat_lt.mp herrors
  have hnext : (k.val.consecutiveErrors + 1).toNat = k.val.consecutiveErrors.toNat + 1 := by
    rw [UInt32.toNat_add]
    exact Nat.mod_eq_of_lt (by simp; omega)
  have hleft : failuresLeft k.val = 3 - k.val.consecutiveErrors.toNat :=
    if_pos ⟨hhealthy, hweight⟩
  by_cases hle : 3 ≤ k.val.consecutiveErrors + 1
  · -- the last failure that was left: the entry leaves the rotation
    refine ⟨PooledKey.trip ∘ PooledKey.countError, ?_, rfl, ?_, Nat.zero_le _,
      fun htripped => Bool.noConfusion htripped⟩
    · rw [KeyPool.reportFailure_of_le hentry hle]
    · have htwo := UInt32.le_iff_toNat_le.mp hle
      rw [hnext] at htwo
      have htripped : failuresLeft ((PooledKey.trip ∘ PooledKey.countError) k.val) = 0 :=
        if_neg fun hrotation => Bool.noConfusion hrotation.1
      rw [htripped, hleft]
      have hthree : (3 : UInt32).toNat = 3 := rfl
      omega
  · refine ⟨PooledKey.countError, ?_, rfl, ?_, le_rfl, fun _ => UInt32.not_le.mp hle⟩
    · rw [KeyPool.reportFailure_of_lt hentry hle]
    · have hcounted : failuresLeft k.val.countError
          = 3 - (k.val.consecutiveErrors + 1).toNat := if_pos ⟨hhealthy, hweight⟩
      have hlt := UInt32.lt_iff_toNat_lt.mp (UInt32.not_le.mp hle)
      have hthree : (3 : UInt32).toNat = 3 := rfl
      rw [hcounted, hleft, hnext]
      omega

/-- **A failure spends one of the failures that are left.** -/
theorem budget_reportFailure (now : Instant) (h : Bounded p) {k : Cell PooledKey}
    (hmem : k ∈ p.keys.cells) (hhealthy : k.val.healthy = true)
    (hweight : k.val.weight ≠ 0) (hkey : acquired.key = k.val.key) :
    Bounded (p.reportFailure now acquired).1 ∧
      budget test (p.reportFailure now acquired).1 + (if test acquired.key then 1 else 0)
        = budget test p := by
  obtain ⟨f, hkeys, hname, hleft, hshare, herrors⟩ :=
    exists_failed now h hmem hhealthy hweight hkey
  refine ⟨⟨h.distinct.of_keyNames_eq (p.keyNames_reportFailure now acquired), ?_, ?_⟩, ?_⟩
  · have hsum := p.keys.sum_modify hmem f shareOf
    rw [← hkeys, ← KeyPool.healthyWeight_eq_sum, ← KeyPool.healthyWeight_eq_sum] at hsum
    have hlt := h.weight_lt
    omega
  · rw [hkeys]
    refine SharedVec.forall_mem_modify.mpr ?_
    intro l hl
    by_cases hptr : l.ptr = k.ptr
    · rw [p.keys.eq_of_ptr_eq hl hmem hptr, Cell.update_self]
      exact herrors
    · rw [Cell.update_of_ne f hptr]
      exact h.errors_lt l hl
  · have hsum := p.keys.sum_modify hmem f
      fun e => if test e.key then failuresLeft e else 0
    rw [← hkeys] at hsum
    simp only [hname] at hsum
    rw [hkey, budget, budget]
    by_cases htest : test k.val.key = true
    · simp only [if_pos htest] at hsum ⊢
      omega
    · simp only [if_neg htest] at hsum ⊢
      omega

end Attempt

/-! ## The loop -/

section Loop

variable (env : Env) (maxRetries : UInt32) (baseDelayMs : UInt64) (n attempt : ℕ)
  (last : Option AppError) {p p' : KeyPool} {acquired : AcquiredKey}

/-- After a failure was reported, a call ends or goes on with the pool it left. -/
theorem requests_failureArm (p : KeyPool) (acquired : AcquiredKey)
    (next : KeyPool → Run) :
    (failureArm env maxRetries baseDelayMs attempt p acquired next).requests = [] ∨
      (failureArm env maxRetries baseDelayMs attempt p acquired next).requests
        = (next (p.reportFailure (env.now attempt) acquired).1).requests := by
  rcases failureArm_cases env maxRetries baseDelayMs attempt p acquired next with
    heq | ⟨slept, hslept, heq⟩
  · rw [heq]
    exact Or.inl rfl
  · rw [heq]
    exact Or.inr (requests_after_failed _ _ _ hslept)

/-- A call that gets a key issues a request on it, and no other or those of the attempts
that follow its failure. -/
theorem requests_loop_of_acquired (hacquire : p.acquireKey = (p', .ok acquired)) :
    ∃ rest, (loop env maxRetries baseDelayMs (n + 1) attempt last p).requests
        = acquired.key :: rest ∧
      (rest = [] ∨ ∃ last', rest = (loop env maxRetries baseDelayMs n (attempt + 1) last'
        (p'.reportFailure (env.now attempt) acquired).1).requests) := by
  have hrest : ∀ run : Run, (Run.after [.acquired acquired, .requested acquired.key]
      run).requests = acquired.key :: run.requests := fun _ => rfl
  cases hrequest : env.makeRequest attempt acquired.key with
  | none => exact ⟨[], by simp only [loop, hacquire, hrequest]; rfl, Or.inl rfl⟩
  | some outcome =>
      cases hterminal : terminal outcome with
      | true =>
          cases outcome with
          | error e => cases hterminal
          | ok resp =>
              rw [loop_of_terminal hacquire hrequest hterminal]
              exact ⟨[], hrest _, Or.inl rfl⟩
      | false =>
          rw [loop_of_failure hacquire hrequest hterminal, hrest]
          refine ⟨_, rfl, ?_⟩
          rcases requests_failureArm env maxRetries baseDelayMs attempt p' acquired _
            with h | h
          · exact Or.inl h
          · exact Or.inr ⟨_, h⟩

theorem requests_loop_of_refused {e : AppError} (hacquire : p.acquireKey = (p', .error e)) :
    (loop env maxRetries baseDelayMs (n + 1) attempt last p).requests = [] := by
  rw [loop_of_refused hacquire]
  rfl

/-- A loop issues at most one request for each of its attempts. -/
theorem length_requests_loop (p : KeyPool) :
    (loop env maxRetries baseDelayMs n attempt last p).requests.length ≤ n := by
  induction n generalizing attempt last p with
  | zero => exact le_rfl
  | succ n ih =>
      rcases hacquire : p.acquireKey with ⟨p', e | acquired⟩
      · rw [requests_loop_of_refused env maxRetries baseDelayMs n attempt last hacquire]
        exact Nat.zero_le _
      · obtain ⟨rest, hrequests, hrest⟩ := requests_loop_of_acquired env maxRetries
          baseDelayMs n attempt last hacquire
        rw [hrequests, List.length_cons]
        refine Nat.succ_le_succ ?_
        rcases hrest with rfl | ⟨last', rfl⟩
        · exact Nat.zero_le _
        · exact ih _ _ _

/-- **The requests of a loop are paid for by the failures that are left.** -/
theorem countP_requests_loop (test : String → Bool) (h : Bounded p) :
    (loop env maxRetries baseDelayMs n attempt last p).requests.countP test
      ≤ budget test p := by
  induction n generalizing attempt last p with
  | zero => exact Nat.zero_le _
  | succ n ih =>
      rcases hacquire : p.acquireKey with ⟨p', e | acquired⟩
      · rw [requests_loop_of_refused env maxRetries baseDelayMs n attempt last hacquire]
        exact Nat.zero_le _
      · obtain ⟨h', hbudget, k, hmem, hhealthy, hweight, hkey⟩ := h.acquireKey test hacquire
        obtain ⟨hnext, hspent⟩ := budget_reportFailure test (env.now attempt) h' hmem
          hhealthy hweight hkey
        obtain ⟨rest, hrequests, hrest⟩ := requests_loop_of_acquired env maxRetries
          baseDelayMs n attempt last hacquire
        have hpaid : rest.countP test
            ≤ budget test (p'.reportFailure (env.now attempt) acquired).1 := by
          rcases hrest with rfl | ⟨last', rfl⟩
          · exact Nat.zero_le _
          · exact ih _ _ hnext
        rw [hrequests, List.countP_cons]
        omega

end Loop

/-! ## The two budgets -/

section Budget

variable {p : KeyPool}

/-- The budget of all keys, over the healthy entries that have a weight. -/
theorem budget_all : budget (fun _ => true) p
    = ((p.healthyKeys.filter fun k => k.val.weight ≠ 0).map fun k =>
        3 - k.val.consecutiveErrors.toNat).sum := by
  have hsum := List.sum_map_ite
    (fun k : Cell PooledKey => k.val.healthy = true ∧ k.val.weight ≠ 0)
    (fun k => 3 - k.val.consecutiveErrors.toNat) (fun _ => 0) p.keys.cells
  rw [List.map_const', List.sum_replicate, smul_zero, Nat.add_zero] at hsum
  rw [budget, KeyPool.healthyKeys, List.filter_filter]
  simp only [if_true, failuresLeft]
  rw [hsum]
  congr 2
  refine List.filter_congr ?_
  intro k _
  rw [Bool.decide_and, Bool.decide_eq_true, Bool.and_comm]

/-- The budget of one key is what is left for its entry. -/
theorem budget_key (h : p.DistinctKeys) {k : Cell PooledKey} (hk : k ∈ p.keys.cells) :
    budget (fun key => key == k.val.key) p = failuresLeft k.val := by
  have hnames : (p.keys.cells.map fun l => l.val.key).Nodup := h
  obtain ⟨before, after, hcells⟩ := List.append_of_mem hk
  rw [hcells, List.map_append, List.map_cons, List.nodup_append, List.nodup_cons] at hnames
  obtain ⟨-, ⟨hafter, -⟩, hbefore⟩ := hnames
  have hnothing : ∀ part : List (Cell PooledKey), (∀ l ∈ part, l.val.key ≠ k.val.key) →
      (part.map fun l => if (l.val.key == k.val.key) = true then failuresLeft l.val
        else 0).sum = 0 := by
    intro part hpart
    rw [List.sum_eq_zero_iff]
    intro n hn
    obtain ⟨l, hl, rfl⟩ := List.mem_map.mp hn
    exact if_neg (by simpa using hpart l hl)
  have hfront := hnothing before fun l hl heq =>
    hbefore _ (List.mem_map_of_mem hl) _ List.mem_cons_self heq
  have hback := hnothing after fun l hl heq =>
    hafter (heq ▸ List.mem_map_of_mem (f := fun l : Cell PooledKey => l.val.key) hl)
  rw [budget, hcells, List.map_append, List.map_cons, List.sum_append, List.sum_cons,
    hfront, hback]
  simp

end Budget

/-- **The breaker bounds retry amplification.**  A call issues at most
`max_retries + 1` requests, at most as many as there are failures left over all entries
in rotation, and at most `3 - consecutive_errors` on any one key. -/
theorem withRetry_requests_le (env : Env) (maxRetries : UInt32) (baseDelayMs : UInt64)
    (p : KeyPool) (hdistinct : p.DistinctKeys) (hlt : p.healthyWeight < 2 ^ 32)
    (herrors : ∀ k ∈ p.keys.cells, k.val.healthy = true → k.val.consecutiveErrors < 3) :
    (withRetry env maxRetries baseDelayMs p).requests.length
        ≤ min (maxRetries.toNat + 1)
            ((p.healthyKeys.filter fun k => k.val.weight ≠ 0).map fun k =>
              3 - k.val.consecutiveErrors.toNat).sum ∧
      ∀ k ∈ p.keys.cells,
        (withRetry env maxRetries baseDelayMs p).requests.count k.val.key
          ≤ 3 - k.val.consecutiveErrors.toNat := by
  have h : Bounded p := ⟨hdistinct, hlt, herrors⟩
  refine ⟨le_min (length_requests_loop env maxRetries baseDelayMs _ 0 none p) ?_, ?_⟩
  · rw [← budget_all]
    have hpaid := countP_requests_loop env maxRetries baseDelayMs
      (maxRetries.toNat + 1) 0 none (fun _ => true) h
    rwa [List.countP_true] at hpaid
  · intro k hk
    have hpaid := countP_requests_loop env maxRetries baseDelayMs
      (maxRetries.toNat + 1) 0 none (fun key => key == k.val.key) h
    rw [budget_key hdistinct hk] at hpaid
    refine hpaid.trans ?_
    unfold failuresLeft
    split
    · exact le_rfl
    · exact Nat.zero_le _

/-- Two keys, one of which has failed twice before, and a provider that is down: ten
retries issue at most four requests. -/
theorem withRetry_requests_le_two_keys :
    let p : KeyPool :=
      { KeyPool.new [] with
        keys := SharedVec.ofList [⟨"tp-1", 1, true, 0, 0⟩, ⟨"tp-2", 1, true, 2, 9⟩] }
    (withRetry (answering fun _ => ⟨503, by decide⟩) 10 500 p).requests.length ≤ 4 :=
  (withRetry_requests_le (answering fun _ => ⟨503, by decide⟩) 10 500
    { KeyPool.new [] with
      keys := SharedVec.ofList [⟨"tp-1", 1, true, 0, 0⟩, ⟨"tp-2", 1, true, 2, 9⟩] }
    (by decide) (by decide) (by decide)).1.trans (by decide)

end XiaomiProxy.Retry
