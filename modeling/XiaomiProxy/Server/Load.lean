import XiaomiProxy.Middleware.Credentials
import XiaomiProxy.Middleware.Quota
import XiaomiProxy.Server

/-!
# What the provider has to bear

A call sends a request for each of its attempts, and between two of them the others go
on with theirs.  Still the sends for a client key are bounded, in every stretch of a run:

* `sent_rate_le` — by `max_retries + 1` for each call that is under way, and as many for
  each check that the limiter may grant.
* `sent_revoked_le` — and after the key has left the cache, by the calls that were let
  through before, however long they take.

A request is paid for in advance: a call that gets past its check is granted all its
attempts, and a task holds the ones it has left (`Task.share`).
-/

namespace XiaomiProxy

namespace RateLimiter

/-- The checks of two stretches. -/
theorem admitted_append (limiter : RateLimiter) (checks rest : List Check) :
    admitted limiter (checks ++ rest)
      = admitted limiter checks ++ admitted (after limiter checks) rest := by
  induction checks generalizing limiter with
  | nil => rfl
  | cons c checks ih =>
      rw [List.cons_append, admitted_cons, ih, admitted_cons, List.append_assoc]
      rfl

/-- No bucket is overdrawn by checks. -/
theorem nonNeg_after {limiter : RateLimiter} (checks : List Check)
    (h : ∀ key, TokenBuckets.NonNeg (limiter.buckets key)) (key : String) :
    TokenBuckets.NonNeg ((after limiter checks).buckets key) := by
  induction checks generalizing limiter with
  | nil => exact h key
  | cons c checks ih =>
      refine ih fun key' => ?_
      rw [check_buckets]
      by_cases hkey : key' = c.key
      · rw [hkey, Function.update_self]
        exact TokenBuckets.draw_nonNeg clock limiter.toPolicy c.now (h c.key)
      · rw [Function.update_of_ne hkey]
        exact h key'

/-- A limiter that was at work before keeps the rate. -/
theorem countP_admitted_after_le (requestsPerMinute burstSize : UInt32)
    (before : List Check) {checks : List Check}
    (hsorted : (checks.map Check.now).Pairwise (· ≤ ·)) (key : String) {a b : ℚ}
    (hab : a ≤ b)
    (hwindow : ∀ c ∈ checks, a ≤ Duration.asSecs c.now ∧ Duration.asSecs c.now ≤ b) :
    ((admitted (after (new requestsPerMinute burstSize) before) checks).countP
        fun c => c.key = key : ℚ)
      ≤ burstSize.toNat + requestsPerMinute.toNat * (b - a) / 60 := by
  have hnonNeg : TokenBuckets.NonNeg
      ((after (new requestsPerMinute burstSize) before).buckets key) :=
    nonNeg_after before (fun _ _ hbucket => absurd hbucket (Option.not_mem_none _)) key
  have hpaid := TokenBuckets.grants_window_le clock
    (after (new requestsPerMinute burstSize) before).toPolicy hab hnonNeg
    (readings_sorted hsorted key)
  have hall : ∀ r ∈ TokenBuckets.grants clock
      (after (new requestsPerMinute burstSize) before).toPolicy
      ((after (new requestsPerMinute burstSize) before).buckets key) (readings key checks),
      a ≤ clock.secs r ∧ clock.secs r ≤ b := by
    intro r hr
    obtain ⟨c, hc, rfl⟩ := mem_of_mem_readings (TokenBuckets.mem_of_mem_grants _ _ _ hr)
    exact hwindow c hc
  have hcount : ((admitted (after (new requestsPerMinute burstSize) before) checks).countP
      fun c => c.key = key) = (TokenBuckets.grants clock
        (after (new requestsPerMinute burstSize) before).toPolicy
        ((after (new requestsPerMinute burstSize) before).buckets key)
        (readings key checks)).countP fun r => a ≤ clock.secs r ∧ clock.secs r ≤ b := by
    rw [List.countP_eq_length.mpr fun r hr => decide_eq_true (hall r hr), readings,
      ← admitted_key, List.length_map, List.countP_eq_length_filter]
  rw [hcount]
  refine hpaid.trans_eq ?_
  rw [after_toPolicy]
  simp only [new]
  ring

end RateLimiter

/-- The requests that were sent on behalf of a client key. -/
def ServerMemory.sentFor (m : ServerMemory) (key : String) : ℕ :=
  m.sent.countP fun sent => sent.1.key = key

namespace Task

/-- A task of a call of a client key. -/
def isFor (key : String) (task : Task) : Bool :=
  match task.call? with
  | some call => call.clientKey.key = key
  | none => false

/-- The requests that a task may still send on behalf of a client key. -/
def share (n : ℕ) (key : String) (task : Task) : ℕ :=
  if task.isFor key then task.work n else 0

end Task

/-- The check of a step. -/
def ServerAction.check? : ServerAction → Option RateLimiter.Check
  | .advance task outside => task.check? outside.now
  | .arrive _ | .leave _ | .recover _ => none

/-- A step that does not put a client key into the cache. -/
def ServerAction.keepsOut (key : String) : ServerAction → Prop
  | .advance (.updating _ (.clientKey (.add randStr payload))) _ =>
      Admin.newClientKey randStr payload ≠ key
  | _ => True

namespace Server

/-- The requests that tasks may still send. -/
def shares (n : ℕ) (key : String) (tasks : Multiset Task) : ℕ :=
  (tasks.map (Task.share n key)).sum

/-- The same, without those of calls that are not checked yet. -/
def granted (n : ℕ) (key : String) (tasks : Multiset Task) : ℕ :=
  shares n key (tasks.filter fun task => task.checked = true)

section Shares

variable {n : ℕ} {key : String} {task : Task} {tasks others : Multiset Task} {call : Call}

theorem isFor_of_call (h : task.call? = some call) :
    task.isFor key = decide (call.clientKey.key = key) := by
  rw [Task.isFor, h]

theorem share_of_call (h : task.call? = some call) :
    task.share n key = if call.clientKey.key = key then task.work n else 0 := by
  rw [Task.share, isFor_of_call h]
  simp

theorem share_of_none (h : task.call? = none) : task.share n key = 0 := by
  rw [Task.share, Task.isFor, h]
  rfl

@[simp] theorem shares_zero : shares n key 0 = 0 := rfl

@[simp] theorem shares_singleton : shares n key {task} = task.share n key := by
  rw [shares, Multiset.map_singleton, Multiset.sum_singleton]

theorem shares_cons : shares n key (task ::ₘ tasks)
    = task.share n key + shares n key tasks := by
  rw [shares, Multiset.map_cons, Multiset.sum_cons, shares]

theorem shares_add : shares n key (tasks + others)
    = shares n key tasks + shares n key others := by
  rw [shares, Multiset.map_add, Multiset.sum_add, shares, shares]

theorem granted_add : granted n key (tasks + others)
    = granted n key tasks + granted n key others := by
  rw [granted, Multiset.filter_add, shares_add, granted, granted]

theorem granted_cons : granted n key (task ::ₘ tasks)
    = (if task.checked then task.share n key else 0) + granted n key tasks := by
  rw [granted]
  cases hchecked : task.checked with
  | true => simp [hchecked, shares_cons, granted]
  | false => simp [hchecked, granted]

theorem granted_le_shares : granted n key tasks ≤ shares n key tasks := by
  induction tasks using Multiset.induction with
  | empty => exact le_rfl
  | cons task tasks ih =>
      rw [granted_cons, shares_cons]
      split <;> omega

theorem granted_eq_zero (h : shares n key tasks = 0) : granted n key tasks = 0 :=
  Nat.le_zero.mp (granted_le_shares.trans_eq h)

theorem granted_singleton_of_checked (h : task.checked = true) :
    granted n key {task} = task.share n key := by
  rw [granted, Multiset.filter_singleton, if_pos h, shares_singleton]

/-- A task that is not checked yet is about to make the check of its call. -/
theorem check?_of_unchecked (now : Instant) (hcall : task.call? = some call)
    (h : task.checked = false) :
    task.check? now = some { now, key := call.clientKey.key } := by
  cases task with
  | limiting call' =>
      obtain rfl := Option.some.inj hcall
      rfl
  | retrying call' remaining request attempt => cases h
  | retried call' remaining request attempt acquired => cases h
  | streaming call' remaining request => cases h
  | streamed call' remaining acquired => cases h
  | reading call' remaining returned => cases h
  | recording record => cases h
  | changing headers change => cases h
  | updating headers change => cases h
  | querying headers query => cases h

/-- A call makes its attempts, and no more. -/
theorem work_le : task.work n ≤ n + 1 := by
  cases task <;> simp only [Task.work] <;> omega

theorem shares_le : shares n key tasks ≤ (n + 1) * tasks.countP (fun t => t.isFor key) := by
  induction tasks using Multiset.induction with
  | empty => simp
  | cons task tasks ih =>
      rw [shares_cons, Multiset.countP_cons, Task.share, mul_add]
      have hwork : task.work n ≤ n + 1 := work_le
      split_ifs <;> simp <;> omega

theorem granted_le : granted n key tasks
    ≤ (n + 1) * tasks.countP (fun t => t.checked ∧ t.isFor key) := by
  refine shares_le.trans_eq ?_
  rw [Multiset.countP_filter]
  congr 2
  ext task
  exact and_comm

end Shares

/-! ## One step -/

section Finish

variable {m : ServerMemory} {call : Call} {remaining : UInt32} {handled : Handled}

theorem shares_finish {n : ℕ} {key : String} :
    shares n key (finish m call.request remaining handled).2 = 0 := by
  rw [finish_tasks]
  cases handled.spawned with
  | none => rfl
  | some record => exact shares_singleton.trans (share_of_none rfl)

end Finish

section Bears

variable {crates : Crates} {m : ServerMemory} {call : Call}
  {check : Option RateLimiter.Check} {n work : ℕ} {key : String} {left : Left}

theorem config_serves {state state' : AppState} (h : Serves state check state') :
    state'.config = state.config := by
  cases h <;> rfl

theorem clientKeys_serves {state state' : AppState} (h : Serves state check state') :
    state'.clientKeys = state.clientKeys := by
  cases h <;> rfl

theorem rateLimiter_serves {state state' : AppState} (h : Serves state check state') :
    state'.rateLimiter = RateLimiter.after state.rateLimiter check.toList := by
  cases h <;> rfl

/-- The state a step of a call leaves. -/
theorem CallStep.serves (h : CallStep crates m call check n work left) :
    Serves m.state check left.1.state := by
  cases h with
  | goesOn hstate hpasses hcall hpast hwork => exact hstate
  | sends sent hstate hcheck hcall hpast hwork => exact hstate
  | ends hstate remaining elapsed returned =>
      rw [finish_state]
      exact hstate
  | refused hstate response => exact hstate
  | panicked hstate => exact hstate

/-- One more request is one attempt less. -/
theorem CallStep.shares_le (h : CallStep crates m call check n work left) :
    left.1.sentFor key + shares n key left.2
      ≤ m.sentFor key + if call.clientKey.key = key then work else 0 := by
  cases h with
  | goesOn hstate hpasses hcall hpast hwork =>
      rw [shares_singleton, share_of_call hcall]
      show m.sentFor key + _ ≤ _
      split_ifs <;> omega
  | sends sent hstate hcheck hcall hpast hwork =>
      rw [shares_singleton, share_of_call hcall, ServerMemory.sentFor, ServerMemory.issue,
        List.countP_append, List.countP_singleton, ServerMemory.sentFor]
      simp only [decide_eq_true_eq]
      split_ifs <;> omega
  | ends hstate remaining elapsed returned =>
      rw [shares_finish, ServerMemory.sentFor, finish_sent]
      exact Nat.le_add_right _ _
  | refused hstate response => exact Nat.le_add_right _ _
  | panicked hstate => exact Nat.le_add_right _ _

/-- A check that succeeds grants a call its attempts. -/
theorem CallStep.granted_le {c : RateLimiter.Check} (hwork : work ≤ n + 1)
    (hkey : c.key = call.clientKey.key) (h : CallStep crates m call (some c) n work left) :
    left.1.sentFor key + granted n key left.2
      ≤ m.sentFor key + (n + 1) *
        (RateLimiter.admitted m.state.rateLimiter [c]).countP fun c => c.key = key := by
  cases h with
  | goesOn hstate hpasses hcall hpast hle =>
      rw [granted_singleton_of_checked hpast, share_of_call hcall, RateLimiter.admitted_cons,
        if_pos (hpasses c rfl)]
      show m.sentFor key + _ ≤ _
      simp only [RateLimiter.admitted, List.append_nil, List.countP_singleton, hkey,
        decide_eq_true_eq]
      split_ifs <;> omega
  | sends sent hstate hcheck hcall hpast hle => cases hcheck
  | ends hstate remaining elapsed returned =>
      rw [granted_eq_zero shares_finish, ServerMemory.sentFor, finish_sent]
      exact Nat.le_add_right _ _
  | refused hstate response => exact Nat.le_add_right _ _
  | panicked hstate => exact Nat.le_add_right _ _

end Bears

/-- What a step of a task does to the load: `check` is the one it makes. -/
structure Bears (key : String) (m : ServerMemory) (task : Task)
    (check : Option RateLimiter.Check) (left : Left) : Prop where
  config : left.1.state.config = m.state.config
  limiter : left.1.state.rateLimiter
    = RateLimiter.after m.state.rateLimiter check.toList
  shares : left.1.sentFor key
      + shares m.state.config.downstream.maxRetries.toNat key left.2
    ≤ m.sentFor key + task.share m.state.config.downstream.maxRetries.toNat key
  granted : left.1.sentFor key
      + granted m.state.config.downstream.maxRetries.toNat key left.2
    ≤ m.sentFor key + (if task.checked
        then task.share m.state.config.downstream.maxRetries.toNat key else 0)
      + (m.state.config.downstream.maxRetries.toNat + 1) *
        (RateLimiter.admitted m.state.rateLimiter check.toList).countP fun c => c.key = key

section Step

variable {crates : Crates} {outside : Outside} {m : ServerMemory} {key : String}
  {left : Left} {task : Task}

/-- A step that has nothing to do with calls. -/
theorem Bears.of_idle (hconfig : left.1.state.config = m.state.config)
    (hlimiter : left.1.state.rateLimiter = m.state.rateLimiter)
    (hsent : left.1.sent = m.sent) (htasks : ∀ t ∈ left.2, t.call? = none) :
    Bears key m task none left := by
  have hzero : ∀ n, Server.shares n key left.2 = 0 := by
    intro n
    refine Multiset.sum_eq_zero fun x hx => ?_
    obtain ⟨t, ht, rfl⟩ := Multiset.mem_map.mp hx
    exact share_of_none (htasks t ht)
  constructor
  · exact hconfig
  · exact hlimiter
  · rw [hzero, ServerMemory.sentFor, hsent, ServerMemory.sentFor]
    exact Nat.le_add_right _ _
  · rw [granted_eq_zero (hzero _), ServerMemory.sentFor, hsent, ServerMemory.sentFor,
      add_assoc]
    exact Nat.le_add_right _ _

/-- **What a step of a task does to the load.** -/
theorem bears_advance (task : Task) :
    Bears key m task (task.check? outside.now) (advance crates outside m task) := by
  cases hcall : task.call? with
  | some call =>
      have hstep := callStep_advance crates outside m hcall
      refine ⟨config_serves hstep.serves, rateLimiter_serves hstep.serves,
        hstep.shares_le.trans_eq ?_, ?_⟩
      · rw [share_of_call hcall]
      · cases hchecked : task.checked with
        | true =>
            rw [if_pos rfl, share_of_call hcall]
            exact (add_le_add_right granted_le_shares _).trans
              (hstep.shares_le.trans (Nat.le_add_right _ _))
        | false =>
            have hcheck := check?_of_unchecked outside.now hcall hchecked
            rw [hcheck] at hstep ⊢
            exact hstep.granted_le work_le rfl
  | none =>
      have hidle := idleStep_advance crates outside m hcall
      generalize advance crates outside m task = left at hidle ⊢
      cases hidle with
      | records record => exact .of_idle rfl rfl rfl (by simp [recording])
      | fails headers change db response => exact .of_idle rfl rfl rfl (by simp)
      | changes headers change db => exact .of_idle rfl rfl rfl (by simp [Task.call?])
      | updates headers change =>
          rcases change with request | payload | ⟨key, weight⟩ | key <;>
            exact .of_idle rfl rfl rfl (by simp [updating])
      | panics headers query => exact .of_idle rfl rfl rfl (by simp)
      | replies headers query result => exact .of_idle rfl rfl rfl (by simp)

/-- A request that arrives has not sent anything. -/
theorem arriving_state {request : Request} : (arriving m request).1.state = m.state := by
  cases request <;> rw [arriving] <;> (try split) <;> rfl

theorem arriving_sent {request : Request} : (arriving m request).1.sent = m.sent := by
  cases request <;> rw [arriving] <;> (try split) <;> rfl

/-- It makes at most one task, and of a call only if its client key is in the cache. -/
theorem mem_arriving {request : Request} (h : task ∈ (arriving m request).2) :
    task.call? = none ∨ ∃ call, task = .limiting call ∧
      call.clientKey.key ∈ m.state.clientKeys := by
  cases request with
  | proxy route headers body =>
      rw [arriving] at h
      split at h
      · cases h
      · rename_i clientKey hauth
        obtain rfl := Multiset.mem_singleton.mp h
        exact Or.inr ⟨_, rfl, (Auth.auth_eq_ok_iff.mp hauth).1⟩
  | change headers change =>
      rw [arriving] at h
      split at h
      · cases h
      · obtain rfl := Multiset.mem_singleton.mp h
        exact Or.inl rfl
  | query headers query =>
      rw [arriving] at h
      split at h
      · cases h
      · obtain rfl := Multiset.mem_singleton.mp h
        exact Or.inl rfl
  | health => cases h

/-- What arrives has nothing granted. -/
theorem granted_arriving {n : ℕ} {request : Request} :
    granted n key (arriving m request).2 = 0 := by
  refine Multiset.sum_eq_zero fun x hx => ?_
  obtain ⟨task, htask, rfl⟩ := Multiset.mem_map.mp hx
  obtain ⟨hmem, hchecked⟩ := Multiset.mem_filter.mp htask
  rcases mem_arriving hmem with hcall | ⟨call, rfl, -⟩
  · exact share_of_none hcall
  · cases hchecked

end Step

/-! ## Runs -/

/-- What happened between two states, as far as a limiter and what it granted go. -/
structure Paid (key : String) (s : Server) (ops : List ServerAction) (t : Server) : Prop where
  config : t.memory.state.config = s.memory.state.config
  limiter : t.memory.state.rateLimiter
    = RateLimiter.after s.memory.state.rateLimiter (ops.filterMap ServerAction.check?)
  granted : t.memory.sentFor key
      + granted s.memory.state.config.downstream.maxRetries.toNat key t.threads
    ≤ s.memory.sentFor key
      + granted s.memory.state.config.downstream.maxRetries.toNat key s.threads
      + (s.memory.state.config.downstream.maxRetries.toNat + 1) *
        (RateLimiter.admitted s.memory.state.rateLimiter
          (ops.filterMap ServerAction.check?)).countP fun c => c.key = key

section Runs

variable {crates : Crates} {s s' t : Server} {a : ServerAction} {ops : List ServerAction}
  {key : String}

/-- **What a step does to the load.** -/
theorem paid_step (key : String) (h : s.step crates a = some s') : Paid key s [a] s' := by
  have hchecks : [a].filterMap ServerAction.check? = a.check?.toList := by
    cases ha : a.check? <;> simp [ha]
  cases a with
  | arrive request =>
      rw [step_arrive.mp h]
      refine ⟨congrArg AppState.config arriving_state,
        congrArg AppState.rateLimiter arriving_state, ?_⟩
      rw [granted_add, granted_arriving, zero_add, ServerMemory.sentFor, arriving_sent]
      exact Nat.le_add_right _ _
  | advance task outside =>
      obtain ⟨others, hthreads, rfl⟩ := step_advance.mp h
      have hbears : Bears key s.memory task (task.check? outside.now)
        (advance crates outside s.memory task) := bears_advance task
      refine ⟨hbears.config, ?_, ?_⟩
      · rw [hchecks]
        exact hbears.limiter
      · rw [hchecks, granted_add, hthreads, granted_cons]
        have hgranted := hbears.granted
        show (advance crates outside s.memory task).1.sentFor key + _
          ≤ _ + _ * List.countP _ (RateLimiter.admitted _ (task.check? _).toList)
        omega
  | leave task =>
      obtain ⟨others, hthreads, -, rfl⟩ := step_leave.mp h
      refine ⟨rfl, rfl, ?_⟩
      rw [hthreads, granted_cons]
      simp only
      omega
  | recover recovery =>
      obtain ⟨-, rfl⟩ := step_recover.mp h
      exact ⟨rfl, rfl, Nat.le_add_right _ _⟩

/-- One stretch after another. -/
theorem Paid.trans {m : Server} {before after : List ServerAction}
    (h : Paid key s before m) (h' : Paid key m after t) : Paid key s (before ++ after) t := by
  refine ⟨h'.config.trans h.config, ?_, ?_⟩
  · rw [h'.limiter, h.limiter, List.filterMap_append, RateLimiter.after_append]
  · have hbefore := h.granted
    have hafter := h'.granted
    rw [h.config, h.limiter] at hafter
    rw [List.filterMap_append, RateLimiter.admitted_append, List.countP_append, mul_add]
    omega

/-- What a run does to the load. -/
theorem paid_of_run (hrun : Runs.run (step crates) s ops = some t) : Paid key s ops t := by
  refine Runs.run_invariant_history ⟨rfl, rfl, Nat.le_add_right _ _⟩ ?_ hrun
  intro ops m a m' hm hpaid hstep
  exact hpaid.trans (paid_step key hstep)

/-- **The rate of a client key holds at the provider.**  Of the requests that leave in a
stretch of a run, while the checks read from `a` to `b` seconds, no more are sent on behalf
of the key than its calls under way and `burst_size + requests_per_minute * (b - a) / 60`
others make in `max_retries + 1` attempts each. -/
theorem sent_rate_le {boot : Boot} {config : Config} {db : Db} {state : AppState}
    {logs : RequestLogs} {before ops : List ServerAction} {m t : Server}
    (hnew : AppState.new boot config db = .ok state)
    (hbefore : Runs.run (step crates) (start state logs) before = some m)
    (hrun : Runs.run (step crates) m ops = some t)
    (hsorted : ((ops.filterMap ServerAction.check?).map RateLimiter.Check.now).Pairwise
      (· ≤ ·)) {a b : ℚ} (hab : a ≤ b)
    (hwindow : ∀ c ∈ ops.filterMap ServerAction.check?,
      a ≤ Duration.asSecs c.now ∧ Duration.asSecs c.now ≤ b) (key : String) :
    (t.memory.sentFor key : ℚ) ≤ m.memory.sentFor key
      + (config.downstream.maxRetries.toNat + 1)
        * (m.threads.countP (fun task => task.checked ∧ task.isFor key)
          + (config.rateLimit.burstSize.toNat
            + config.rateLimit.requestsPerMinute.toNat * (b - a) / 60)) := by
  have hpaid : Paid key m ops t := paid_of_run hrun
  have hearlier : Paid key (start state logs) before m := paid_of_run hbefore
  obtain ⟨hopened, loaded, hclient, loaded', hdownstream, rfl⟩ :=
    AppState.new_eq_ok_iff.mp hnew
  have hconfig : m.memory.state.config = config := hearlier.config
  have hlimiter : m.memory.state.rateLimiter = RateLimiter.after
      (.new config.rateLimit.requestsPerMinute config.rateLimit.burstSize)
      (before.filterMap ServerAction.check?) := hearlier.limiter
  have hadmitted := RateLimiter.countP_admitted_after_le config.rateLimit.requestsPerMinute
    config.rateLimit.burstSize (before.filterMap ServerAction.check?) hsorted key hab hwindow
  rw [← hlimiter] at hadmitted
  have hunderWay : granted config.downstream.maxRetries.toNat key m.threads
    ≤ (config.downstream.maxRetries.toNat + 1)
      * m.threads.countP (fun task => task.checked ∧ task.isFor key) := granted_le
  have hload := hpaid.granted
  rw [hconfig] at hload
  -- what is granted at the start, and by the checks on the way
  have hsum : t.memory.sentFor key ≤ m.memory.sentFor key
      + (config.downstream.maxRetries.toNat + 1)
        * (m.threads.countP (fun task => task.checked ∧ task.isFor key)
          + (RateLimiter.admitted m.memory.state.rateLimiter
            (ops.filterMap ServerAction.check?)).countP fun c => c.key = key) := by
    rw [mul_add]
    omega
  have hcast := Nat.cast_le (α := ℚ) |>.mpr hsum
  push_cast at hcast
  refine hcast.trans ?_
  gcongr

/-- A chat completion is checked. -/
def checkedChat : List ServerAction :=
  [.arrive chat.request, .advance (.limiting chat) .smooth]

/-- It sends its request, and another one is checked. -/
def sentChat : List ServerAction :=
  .advance (.retrying chat 59 chatRequest 0) .smooth :: checkedChat

/-- The calls of the first second, of which one is under way. -/
theorem sent_rate_le_chat :
    ∃ m t, Runs.run (step .small) (start Serving.started .empty) checkedChat = some m ∧
      Runs.run (step .small) m sentChat = some t ∧
      (t.memory.sentFor "sk-1" : ℚ) ≤ m.memory.sentFor "sk-1"
        + (Serving.oneOfEach.downstream.maxRetries.toNat + 1)
          * (m.threads.countP (fun task => task.checked ∧ task.isFor "sk-1")
            + (Serving.oneOfEach.rateLimit.burstSize.toNat
              + Serving.oneOfEach.rateLimit.requestsPerMinute.toNat * (1 - 0) / 60)) := by
  have hsome : ((Runs.run (step .small) (start Serving.started .empty) checkedChat).bind
      fun m => Runs.run (step .small) m sentChat).isSome = true := by decide +kernel
  obtain ⟨t, hboth⟩ := Option.isSome_iff_exists.mp hsome
  obtain ⟨m, hbefore, hrun⟩ := Option.bind_eq_some_iff.mp hboth
  have hnew : AppState.new (.succeeding "now") Serving.oneOfEach .empty
    = .ok Serving.started := rfl
  refine ⟨m, t, hbefore, hrun, sent_rate_le hnew hbefore hrun (by decide) (by norm_num) ?_
    "sk-1"⟩
  intro c hc
  obtain rfl : c = ⟨0, "sk-1"⟩ := List.mem_singleton.mp hc
  norm_num [Duration.asSecs]

/-! ## After a client key is revoked -/

theorem clientKeys_update {state : AppState} {change : AdminChange}
    (hkey : key ∉ state.clientKeys)
    (hkeeps : ∀ randStr payload, change = .clientKey (.add randStr payload) →
      Admin.newClientKey randStr payload ≠ key) :
    key ∉ (change.update state).clientKeys := by
  rcases change with (⟨randStr, payload⟩ | removed) | payload | ⟨name, weight⟩ | name
  · rw [AdminChange.update, ClientKeyRequest.updateCache, Finset.mem_insert, not_or]
    exact ⟨(hkeeps randStr payload rfl).symm, hkey⟩
  · exact fun h => hkey (Finset.mem_of_mem_erase h)
  · exact hkey
  · exact hkey
  · exact hkey

theorem notMem_advance {m : ServerMemory} {task : Task} {outside : Outside}
    (hkey : key ∉ m.state.clientKeys)
    (hkeeps : (ServerAction.advance task outside).keepsOut key) :
    key ∉ (advance crates outside m task).1.state.clientKeys := by
  cases hcall : task.call? with
  | some call => rwa [clientKeys_serves (callStep_advance crates outside m hcall).serves]
  | none =>
      have hidle := idleStep_advance crates outside m hcall
      generalize advance crates outside m task = left at hidle ⊢
      cases hidle with
      | records record => exact hkey
      | fails headers change db response => exact hkey
      | changes headers change db => exact hkey
      | updates headers change =>
          refine clientKeys_update hkey fun randStr payload hchange => ?_
          subst hchange
          exact hkeeps
      | panics headers query => exact hkey
      | replies headers query result => exact hkey

/-- Requests with a key that is not in the cache have no share. -/
theorem shares_arriving {m : ServerMemory} {request : Request} {n : ℕ}
    (hkey : key ∉ m.state.clientKeys) : shares n key (arriving m request).2 = 0 := by
  refine Multiset.sum_eq_zero fun x hx => ?_
  obtain ⟨task, htask, rfl⟩ := Multiset.mem_map.mp hx
  rcases mem_arriving htask with hcall | ⟨call, rfl, hmem⟩
  · exact share_of_none hcall
  · rw [share_of_call rfl, if_neg]
    rintro rfl
    exact hkey hmem

/-- The key is out of the cache, and no more is sent than there was a share for. -/
structure KeptOut (key : String) (s t : Server) : Prop where
  config : t.memory.state.config = s.memory.state.config
  gone : key ∉ t.memory.state.clientKeys
  shares : t.memory.sentFor key
      + shares s.memory.state.config.downstream.maxRetries.toNat key t.threads
    ≤ s.memory.sentFor key
      + shares s.memory.state.config.downstream.maxRetries.toNat key s.threads

theorem keptOut_step (hkey : key ∉ s.memory.state.clientKeys) (hkeeps : a.keepsOut key)
    (h : s.step crates a = some s') : KeptOut key s s' := by
  have hconfig : s'.memory.state.config = s.memory.state.config :=
    (paid_step key h).config
  refine ⟨hconfig, ?_, ?_⟩
  · cases a with
    | arrive request =>
        rw [step_arrive.mp h]
        rwa [arriving_state]
    | advance task outside =>
        obtain ⟨others, hthreads, rfl⟩ := step_advance.mp h
        exact notMem_advance hkey hkeeps
    | leave task =>
        obtain ⟨others, hthreads, -, rfl⟩ := step_leave.mp h
        exact hkey
    | recover recovery =>
        obtain ⟨-, rfl⟩ := step_recover.mp h
        exact hkey
  · cases a with
    | arrive request =>
        rw [step_arrive.mp h, shares_add, shares_arriving hkey, zero_add,
          ServerMemory.sentFor, arriving_sent]
        exact le_rfl
    | advance task outside =>
        obtain ⟨others, hthreads, rfl⟩ := step_advance.mp h
        have hbears : Bears key s.memory task (task.check? outside.now)
          (advance crates outside s.memory task) := bears_advance task
        have hshares := hbears.shares
        rw [hthreads, shares_cons, shares_add]
        show (advance crates outside s.memory task).1.sentFor key + _ ≤ _
        omega
    | leave task =>
        obtain ⟨others, hthreads, -, rfl⟩ := step_leave.mp h
        rw [hthreads, shares_cons]
        simp only
        omega
    | recover recovery =>
        obtain ⟨-, rfl⟩ := step_recover.mp h
        exact le_rfl

/-- **A key that is out of the cache lives on in the calls under way, and in nothing
else.**  As long as nobody puts it back, they may send the attempts they have left: at most
`max_retries + 1` requests for each. -/
theorem sent_revoked_le {m : Server} (hkey : key ∉ m.memory.state.clientKeys)
    (hkeeps : ∀ a ∈ ops, a.keepsOut key) (hrun : Runs.run (step crates) m ops = some t) :
    t.memory.sentFor key ≤ m.memory.sentFor key
      + (m.memory.state.config.downstream.maxRetries.toNat + 1)
        * m.threads.countP (fun task => task.isFor key) := by
  have hkept : (∀ a ∈ ops, a.keepsOut key) → KeptOut key m t := by
    refine Runs.run_invariant_history
      (H := fun as t => (∀ a ∈ as, a.keepsOut key) → KeptOut key m t)
      (fun _ => ⟨rfl, hkey, le_rfl⟩) ?_ hrun
    intro as s a s' hs ih hstep hall
    have hbefore := ih fun a ha => hall a (List.mem_append_left _ ha)
    have hafter := keptOut_step hbefore.gone
      (hall a (List.mem_append_right _ (List.mem_singleton_self a))) hstep
    have hshares := hafter.shares
    rw [hbefore.config] at hshares
    exact ⟨hafter.config.trans hbefore.config, hafter.gone, hshares.trans hbefore.shares⟩
  have hshares := (hkept hkeeps).shares
  have hle : shares m.memory.state.config.downstream.maxRetries.toNat key m.threads
    ≤ _ := shares_le
  omega

/-- The key `sk-1` is deleted while two of its calls are under way. -/
def revokedChat : List ServerAction :=
  checkedChat ++ .arrive chat.request :: [
    .arrive (.change [] (.clientKey (.delete "sk-1"))),
    .advance (.changing [] (.clientKey (.delete "sk-1"))) .smooth,
    .advance (.updating [] (.clientKey (.delete "sk-1"))) .smooth]

/-- Both send their requests, and a third one is turned away. -/
theorem sent_revoked_le_chat :
    ∃ m t, Runs.run (step .small) (start Serving.started .empty) revokedChat = some m ∧
      Runs.run (step .small) m [.arrive chat.request,
        .advance (.retrying chat 59 chatRequest 0) .smooth,
        .advance (.limiting chat) .smooth,
        .advance (.retrying chat 58 chatRequest 0) .smooth] = some t ∧
      t.memory.sentFor "sk-1" ≤ m.memory.sentFor "sk-1"
        + (m.memory.state.config.downstream.maxRetries.toNat + 1)
          * m.threads.countP (fun task => task.isFor "sk-1") := by
  have hboth : ((Runs.run (step .small) (start Serving.started .empty) revokedChat).bind
      fun m => if "sk-1" ∈ m.memory.state.clientKeys then none else
        (Runs.run (step .small) m [.arrive chat.request,
          .advance (.retrying chat 59 chatRequest 0) .smooth,
          .advance (.limiting chat) .smooth,
          .advance (.retrying chat 58 chatRequest 0) .smooth])).isSome = true := by
    decide +kernel
  obtain ⟨t, hboth⟩ := Option.isSome_iff_exists.mp hboth
  obtain ⟨m, hrevoked, hrest⟩ := Option.bind_eq_some_iff.mp hboth
  obtain ⟨hkey, hrun⟩ := Option.ite_none_left_eq_some.mp hrest
  refine ⟨m, t, hrevoked, hrun, sent_revoked_le hkey ?_ hrun⟩
  simp [ServerAction.keepsOut]

end Runs

end Server

end XiaomiProxy
