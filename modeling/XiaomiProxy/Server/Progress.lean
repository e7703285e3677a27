import XiaomiProxy.Server.Load

/-!
# Every request comes to an end

Nothing under way waits for anything but the outside: a task can always take its next
step, and what it may still do is bounded (`Task.effort`).  So a request takes at most
`2 * max_retries + 5` steps, whatever happens between them, and the tasks under way can be
brought to their end, whatever the outside makes of their steps (`drains`).

By then its request was answered, once, or dropped, by a client that went away or by a
handler that panicked (`accounted_for`).
-/

namespace XiaomiProxy

namespace Task

/-- The steps that a task may still take, when a call makes `n` retries, the one of the
task it may spawn among them. -/
def effort (n : ℕ) : Task → ℕ
  | .limiting _ => 2 * n + 5
  | .retrying _ _ _ attempt => 2 * (n - attempt) + 4
  | .retried _ _ _ attempt _ => 2 * (n - attempt) + 3
  | .streaming _ _ _ => 4
  | .streamed _ _ _ => 3
  | .reading _ _ _ => 2
  | .recording _ => 1
  | .changing _ _ => 2
  | .updating _ _ => 1
  | .querying _ _ => 1

theorem effort_pos (n : ℕ) (task : Task) : 0 < task.effort n := by
  cases task <;> simp [effort]

/-- The request a task is to answer. -/
def request? : Task → Option Request
  | .limiting call => some call.request
  | .retrying call _ _ _ | .retried call _ _ _ _ => some call.request
  | .streaming call _ _ | .streamed call _ _ => some call.request
  | .reading call _ _ => some call.request
  | .recording _ => none
  | .changing headers change | .updating headers change => some (.change headers change)
  | .querying headers query => some (.query headers query)

end Task

namespace ServerAction

/-- A step of a task. -/
def ofTask : ServerAction → Bool
  | .advance _ _ | .leave _ => true
  | .arrive _ | .recover _ => false

/-- The request that arrives. -/
def request? : ServerAction → Option Request
  | .arrive request => some request
  | .advance _ _ | .leave _ | .recover _ => none

end ServerAction

namespace Server

/-- The steps that tasks may still take. -/
def effort (n : ℕ) (tasks : Multiset Task) : ℕ := (tasks.map (Task.effort n)).sum

/-! ## Steps ahead -/

section Effort

variable {crates : Crates} {outside : Outside} {m : ServerMemory} {n : ℕ} {task : Task}
  {tasks others : Multiset Task} {call : Call}

theorem effort_zero : effort n 0 = 0 := rfl

theorem effort_cons : effort n (task ::ₘ tasks) = task.effort n + effort n tasks := by
  rw [effort, Multiset.map_cons, Multiset.sum_cons, effort]

theorem effort_add : effort n (tasks + others) = effort n tasks + effort n others := by
  rw [effort, Multiset.map_add, Multiset.sum_add, effort, effort]

theorem effort_singleton : effort n {task} = task.effort n := by
  rw [effort, Multiset.map_singleton, Multiset.sum_singleton]

/-- All that a handler leaves to do is its record. -/
theorem effort_finish_le (request : Request) (remaining : UInt32) (handled : Handled) :
    effort n (finish m request remaining handled).2 ≤ 1 := by
  rw [finish_tasks]
  cases handled.spawned with
  | none => exact effort_zero.trans_le (Nat.zero_le _)
  | some record => exact effort_singleton.le

theorem effort_send_le (request : Forwarder.ClientRequest) (acquired : AcquiredKey)
    (next : Task) : effort n (send m call request acquired next).2 ≤ next.effort n := by
  rw [send]
  split
  · exact effort_zero.trans_le (Nat.zero_le _)
  · exact effort_singleton.le

/-- A failed attempt leaves no more to do than those that are left. -/
theorem effort_failed_le (remaining : UInt32) (request : Forwarder.ClientRequest)
    (attempt : ℕ) (acquired : AcquiredKey) :
    effort m.state.config.downstream.maxRetries.toNat
        (failed crates outside m call remaining request attempt acquired).2
      ≤ 2 * (m.state.config.downstream.maxRetries.toNat - attempt) + 2 := by
  simp only [failed]
  split
  · exact effort_zero.trans_le (Nat.zero_le _)
  · split
    · exact effort_zero.trans_le (Nat.zero_le _)
    · split
      · rw [effort_singleton, Task.effort]
        omega
      · exact (effort_finish_le _ _ _).trans (by omega)

/-- **A step leaves less to do.** -/
theorem effort_advance_lt (task : Task) :
    effort m.state.config.downstream.maxRetries.toNat (advance crates outside m task).2
      < task.effort m.state.config.downstream.maxRetries.toNat := by
  cases task with
  | limiting call =>
      show effort _ (limiting crates outside m call).2 < _
      unfold limiting
      generalize RateLimit.rateLimit outside.now m.state.rateLimiter (some call.clientKey)
        = checked
      rcases checked with ⟨rateLimiter, response | remaining⟩
      · exact effort_zero.trans_lt (Task.effort_pos _ _)
      · simp only
        split
        · exact (effort_finish_le _ _ _).trans_lt (by simp [Task.effort])
        · exact effort_singleton.trans_lt (by simp [Task.effort])
        · exact effort_singleton.trans_lt (by simp [Task.effort])
  | retrying call remaining request attempt =>
      simp only [advance, retrying]
      split
      · exact (effort_finish_le _ _ _).trans_lt (by simp [Task.effort])
      · exact (effort_send_le _ _ _).trans_lt (by simp [Task.effort])
  | retried call remaining request attempt acquired =>
      simp only [advance, retried]
      split
      · split
        · exact Nat.lt_succ_of_le (effort_failed_le _ _ _ _)
        · exact effort_singleton.trans_lt (by simp [Task.effort])
      · exact Nat.lt_succ_of_le (effort_failed_le _ _ _ _)
  | streaming call remaining request =>
      simp only [advance, streaming]
      split
      · exact (effort_finish_le _ _ _).trans_lt (by simp [Task.effort])
      · exact (effort_send_le _ _ _).trans_lt (by simp [Task.effort])
  | streamed call remaining acquired =>
      simp only [advance, streamed]
      split
      · exact (effort_finish_le _ _ _).trans_lt (by simp [Task.effort])
      · split
        · split
          · exact effort_zero.trans_lt (Task.effort_pos _ _)
          · exact effort_singleton.trans_lt (by simp [Task.effort])
        · exact (effort_finish_le _ _ _).trans_lt (by simp [Task.effort])
  | reading call remaining returned => exact Nat.lt_succ_of_le (effort_finish_le _ _ _)
  | recording record => exact effort_zero.trans_lt Nat.one_pos
  | changing headers change =>
      simp only [advance, changing]
      split
      · exact effort_zero.trans_lt (Task.effort_pos _ _)
      · exact effort_singleton.trans_lt (by simp [Task.effort])
  | updating headers change => exact effort_zero.trans_lt Nat.one_pos
  | querying headers query =>
      rw [advance, querying]
      split <;> exact effort_zero.trans_lt (Task.effort_pos _ _)

/-- A request that arrives has its own steps ahead of it. -/
theorem effort_arriving_le (request : Request) :
    effort n (arriving m request).2 ≤ 2 * n + 5 := by
  cases request with
  | health => exact effort_zero.trans_le (Nat.zero_le _)
  | proxy route headers body =>
      rw [arriving]
      split
      · exact effort_zero.trans_le (Nat.zero_le _)
      · exact effort_singleton.le
  | change headers change =>
      rw [arriving]
      split
      · exact effort_zero.trans_le (Nat.zero_le _)
      · exact effort_singleton.trans_le (by simp [Task.effort])
  | query headers query =>
      rw [arriving]
      split
      · exact effort_zero.trans_le (Nat.zero_le _)
      · exact effort_singleton.trans_le (by simp [Task.effort])

end Effort

/-- The steps that tasks took between two states: what was ahead of them, and of the
requests that arrived, less what is. -/
def Spent (s : Server) (ops : List ServerAction) (t : Server) : Prop :=
  ops.countP ServerAction.ofTask
      + effort s.memory.state.config.downstream.maxRetries.toNat t.threads
    ≤ effort s.memory.state.config.downstream.maxRetries.toNat s.threads
      + (2 * s.memory.state.config.downstream.maxRetries.toNat + 5)
        * (ops.filterMap ServerAction.request?).length

section Steps

variable {crates : Crates} {s s' t : Server} {a : ServerAction} {ops : List ServerAction}

theorem spent_step (h : s.step crates a = some s') : Spent s [a] s' := by
  rw [Spent]
  cases a with
  | arrive request =>
      rw [step_arrive.mp h, effort_add]
      have harriving := effort_arriving_le (m := s.memory)
        (n := s.memory.state.config.downstream.maxRetries.toNat) request
      simp only [List.countP_singleton, ServerAction.ofTask, Bool.false_eq_true, if_false,
        List.filterMap_cons, ServerAction.request?, List.filterMap_nil, List.length_singleton]
      omega
  | advance task outside =>
      obtain ⟨others, hthreads, rfl⟩ := step_advance.mp h
      have hlt : effort s.memory.state.config.downstream.maxRetries.toNat
          (advance crates outside s.memory task).2
        < task.effort s.memory.state.config.downstream.maxRetries.toNat :=
        effort_advance_lt task
      rw [hthreads, effort_cons, effort_add]
      simp only [List.countP_singleton, ServerAction.ofTask, if_true]
      omega
  | leave task =>
      obtain ⟨others, hthreads, -, rfl⟩ := step_leave.mp h
      have hpos := task.effort_pos s.memory.state.config.downstream.maxRetries.toNat
      rw [hthreads, effort_cons]
      simp only [List.countP_singleton, ServerAction.ofTask, if_true]
      omega
  | recover recovery =>
      obtain ⟨-, rfl⟩ := step_recover.mp h
      exact le_of_eq (by simp [ServerAction.ofTask, ServerAction.request?])

theorem config_step (h : s.step crates a = some s') :
    s'.memory.state.config = s.memory.state.config :=
  (paid_step "" h).config

theorem spent_of_run (hrun : Runs.run (step crates) s ops = some t) : Spent s ops t := by
  refine Runs.run_invariant_history (Nat.le_of_eq (Nat.zero_add _)) ?_ hrun
  intro ops m a m' hm hops hstep
  have hconfig : m.memory.state.config = s.memory.state.config :=
    Runs.run_invariant (I := fun m : Server => m.memory.state.config
      = s.memory.state.config) (fun _ _ _ h hstep => (config_step hstep).trans h) rfl hm
  have hlast := spent_step hstep
  rw [Spent, hconfig] at hlast
  rw [Spent] at hops ⊢
  rw [List.countP_append, List.filterMap_append, List.length_append, mul_add]
  omega

/-- The tasks under way can be brought to their end, whatever the outside makes of their
steps. -/
theorem exists_ending (crates : Crates) (outsides : ℕ → Outside) (s : Server) :
    ∃ (tasks : List Task) (t : Server), Runs.run (step crates) s
        (tasks.mapIdx fun i task => .advance task (outsides i)) = some t ∧
      t.threads = 0 := by
  induction hn : effort s.memory.state.config.downstream.maxRetries.toNat s.threads
    using Nat.strong_induction_on generalizing s outsides with
  | _ n ih =>
      rcases Multiset.empty_or_exists_mem s.threads with hrest | ⟨task, hmem⟩
      · exact ⟨[], s, rfl, hrest⟩
      · obtain ⟨next, hnext⟩ : ∃ next, s.step crates (.advance task (outsides 0)) = some next :=
          ⟨_, step_advance.mpr ⟨_, (Multiset.cons_erase hmem).symm, rfl⟩⟩
        have hconfig : next.memory.state.config = s.memory.state.config := config_step hnext
        have hstep := spent_step hnext
        simp only [Spent, List.countP_singleton, ServerAction.ofTask, if_true,
          List.filterMap_cons, ServerAction.request?, List.filterMap_nil, List.length_nil,
          mul_zero] at hstep
        obtain ⟨tasks, t, hrun, hdone⟩ := ih _ (by rw [hconfig]; omega)
          (fun i => outsides (i + 1)) next rfl
        refine ⟨task :: tasks, t, ?_, hdone⟩
        rw [List.mapIdx_cons]
        exact Runs.run_cons_eq_some.mpr ⟨next, hnext, hrun⟩

/-- **The server drains.**  In every run, the tasks have taken at most
`2 * max_retries + 5` steps for each request that arrived, with those still ahead of them;
and those under way can be brought to their end, whatever the outside makes of it. -/
theorem drains {state : AppState} {logs : RequestLogs}
    (hrun : Runs.run (step crates) (start state logs) ops = some t) :
    ops.countP ServerAction.ofTask
        + effort state.config.downstream.maxRetries.toNat t.threads
      ≤ (2 * state.config.downstream.maxRetries.toNat + 5)
        * (ops.filterMap ServerAction.request?).length ∧
      ∀ outsides : ℕ → Outside, ∃ (tasks : List Task) (t' : Server),
        Runs.run (step crates) t
          (tasks.mapIdx fun i task => .advance task (outsides i)) = some t' ∧
        t'.threads = 0 := by
  have hspent : Spent (start state logs) ops t := spent_of_run hrun
  rw [Spent, show effort _ (start state logs).threads = 0 from effort_zero, zero_add]
    at hspent
  exact ⟨hspent, fun outsides => exists_ending crates outsides t⟩

theorem drains_chat :
    ∃ t, Runs.run (step .small) (start Serving.started .empty) checkedChat = some t ∧
      effort Serving.oneOfEach.downstream.maxRetries.toNat t.threads = 10 ∧
      ∃ (tasks : List Task) (t' : Server), Runs.run (step .small) t
          (tasks.mapIdx fun _ task => .advance task .smooth) = some t' ∧
        t'.threads = 0 := by
  have hsome : ((Runs.run (step .small) (start Serving.started .empty) checkedChat).filter
      fun t => effort Serving.oneOfEach.downstream.maxRetries.toNat t.threads = 10).isSome
        = true := by
    decide +kernel
  obtain ⟨t, hfiltered⟩ := Option.isSome_iff_exists.mp hsome
  obtain ⟨hrun, heffort⟩ := Option.filter_eq_some_iff.mp hfiltered
  exact ⟨t, hrun, of_decide_eq_true heffort, (drains hrun).2 fun _ => .smooth⟩

end Steps

/-! ## Requests -/

/-- The requests that are answered. -/
def responded (m : ServerMemory) : Multiset Request := ↑(m.responses.map Served.request)

/-- The requests that tasks are to answer. -/
def unanswered (tasks : Multiset Task) : Multiset Request := tasks.filterMap Task.request?

/-- The request that a step drops: its client goes away, or its handler panics, and leaves
neither a response nor a task that is to give one. -/
def dropped (crates : Crates) (s : Server) : ServerAction → Multiset Request
  | .leave task => unanswered {task}
  | .advance task outside =>
      let left := advance crates outside s.memory task
      if left.1.responses.length = s.memory.responses.length ∧ unanswered left.2 = 0 then
        unanswered {task}
      else 0
  | .arrive _ | .recover _ => 0

/-- What a step makes of a request it is to answer. -/
inductive Treats (request : Request) (m : ServerMemory) (left : Left) : Prop where
  | goesOn (hkept : left.1.responses = m.responses) (hlater : unanswered left.2 = {request})
  | responds (response : ServerResponse)
      (hadded : left.1.responses = m.responses ++ [⟨request, response⟩])
      (hnobody : unanswered left.2 = 0)
  | drops (hkept : left.1.responses = m.responses) (hnobody : unanswered left.2 = 0)

section Requests

variable {crates : Crates} {outside : Outside} {m : ServerMemory} {call : Call}
  {check : Option RateLimiter.Check} {n work : ℕ} {left : Left} {task : Task}
  {tasks others : Multiset Task} {request : Request}

theorem unanswered_add : unanswered (tasks + others) = unanswered tasks + unanswered others :=
  Multiset.filterMap_add _ _ _

theorem unanswered_cons :
    unanswered (task ::ₘ tasks) = unanswered {task} + unanswered tasks := by
  rw [← Multiset.singleton_add, unanswered_add]

theorem unanswered_singleton (h : task.request? = some request) :
    unanswered {task} = {request} := by
  rw [unanswered, ← Multiset.cons_zero, Multiset.filterMap_cons_some _ _ _ h]
  rfl

theorem unanswered_of_none (h : task.request? = none) : unanswered {task} = 0 := by
  rw [unanswered, ← Multiset.cons_zero, Multiset.filterMap_cons_none _ _ h]
  rfl

theorem request?_of_call (h : task.call? = some call) : task.request? = some call.request := by
  cases task <;> first
    | exact congrArg (Option.map Call.request) h
    | cases h

/-- A step of a call goes on with it, or answers it, or drops it. -/
theorem CallStep.treats (h : CallStep crates m call check n work left) :
    Treats call.request m left := by
  cases h with
  | goesOn hstate hpasses hcall hpast hwork =>
      exact .goesOn rfl (unanswered_singleton (request?_of_call hcall))
  | sends sent hstate hcheck hcall hpast hwork =>
      exact .goesOn rfl (unanswered_singleton (request?_of_call hcall))
  | @ends state hstate remaining elapsed returned =>
      have hnobody : unanswered (finish { m with state } call.request remaining
          (call.handled crates elapsed returned)).2 = 0 := by
        rw [finish_tasks]
        cases (call.handled crates elapsed returned).spawned <;> rfl
      rcases finish_memory { m with state } call.request remaining
        (call.handled crates elapsed returned) with heq | ⟨response, heq⟩
      · exact .drops (by rw [heq]) hnobody
      · exact .responds response (by rw [heq, ServerMemory.respond]) hnobody
  | refused hstate response => exact .responds _ rfl rfl
  | panicked hstate => exact .drops rfl rfl

/-- **What a task makes of its request.** -/
theorem treats_advance (h : task.request? = some request) :
    Treats request m (advance crates outside m task) := by
  cases hcall : task.call? with
  | some call =>
      obtain rfl := Option.some.inj ((request?_of_call hcall).symm.trans h)
      exact (callStep_advance crates outside m hcall).treats
  | none =>
      have hidle := idleStep_advance crates outside m hcall
      generalize advance crates outside m task = left at hidle ⊢
      cases hidle with
      | records record => cases h
      | fails headers change db response =>
          obtain rfl := Option.some.inj h
          exact .responds _ rfl rfl
      | changes headers change db =>
          obtain rfl := Option.some.inj h
          exact .goesOn rfl (unanswered_singleton rfl)
      | updates headers change =>
          obtain rfl := Option.some.inj h
          exact .responds _ rfl rfl
      | panics headers query => exact .drops rfl rfl
      | replies headers query result =>
          obtain rfl := Option.some.inj h
          exact .responds _ rfl rfl

/-- A task without a request is one that records. -/
theorem exists_record (h : task.request? = none) : ∃ record, task = .recording record := by
  cases task with
  | recording record => exact ⟨record, rfl⟩
  | limiting call => cases h
  | retrying call remaining request attempt => cases h
  | retried call remaining request attempt acquired => cases h
  | streaming call remaining request => cases h
  | streamed call remaining acquired => cases h
  | reading call remaining returned => cases h
  | changing headers change => cases h
  | updating headers change => cases h
  | querying headers query => cases h

theorem responded_append (served : Served) {memory : ServerMemory}
    (h : memory.responses = m.responses ++ [served]) :
    responded memory = responded m + {served.request} := by
  rw [responded, h, List.map_append, ← Multiset.coe_add, responded]
  rfl

theorem responded_respond (response : ServerResponse) :
    responded (m.respond request response) = responded m + {request} :=
  responded_append ⟨request, response⟩ rfl

/-- The request is answered, or to be answered, or dropped. -/
theorem Treats.balance (h : Treats request m left) :
    responded left.1 + unanswered left.2
        + (if left.1.responses.length = m.responses.length ∧ unanswered left.2 = 0 then
            {request} else 0)
      = responded m + {request} := by
  cases h with
  | goesOn hkept hlater =>
      have hsome : ({request} : Multiset Request) ≠ 0 := Multiset.singleton_ne_zero request
      rw [hlater, if_neg fun h => hsome h.2, add_zero, responded, hkept, responded]
  | responds response hadded hnobody =>
      have hlonger : left.1.responses.length ≠ m.responses.length := by
        rw [hadded, List.length_append]
        exact Nat.succ_ne_self _
      rw [hnobody, if_neg fun h => hlonger h.1, responded_append _ hadded, add_zero, add_zero]
  | drops hkept hnobody =>
      rw [hnobody, if_pos ⟨congrArg List.length hkept, rfl⟩, responded, hkept, responded,
        add_zero]

/-- A request that arrives is answered, or to be answered. -/
theorem responded_arriving (request : Request) :
    responded (arriving m request).1 + unanswered (arriving m request).2
      = responded m + {request} := by
  cases request with
  | proxy route headers body =>
      rw [arriving]
      split
      · exact (add_zero _).trans (responded_respond _)
      · exact congrArg (responded m + ·) (unanswered_singleton rfl)
  | change headers change =>
      rw [arriving]
      split
      · exact (add_zero _).trans (responded_respond _)
      · exact congrArg (responded m + ·) (unanswered_singleton rfl)
  | query headers query =>
      rw [arriving]
      split
      · exact (add_zero _).trans (responded_respond _)
      · exact congrArg (responded m + ·) (unanswered_singleton rfl)
  | health => exact (add_zero _).trans (responded_respond _)

end Requests

section Runs

variable {crates : Crates} {s s' t : Server} {a : ServerAction} {logs : RequestLogs}
  {state : AppState} {ops : List ServerAction}

/-- **What a step does to the requests.** -/
theorem responded_step (h : s.step crates a = some s') :
    responded s'.memory + unanswered s'.threads + dropped crates s a
      = responded s.memory + unanswered s.threads + ↑a.request?.toList := by
  cases a with
  | arrive request =>
      rw [step_arrive.mp h, unanswered_add, ← add_assoc, responded_arriving]
      show responded s.memory + {request} + unanswered s.threads + 0
        = responded s.memory + unanswered s.threads + {request}
      abel
  | advance task outside =>
      obtain ⟨others, hthreads, rfl⟩ := step_advance.mp h
      rw [hthreads, unanswered_cons, unanswered_add]
      show responded (advance crates outside s.memory task).1 + _ + dropped crates s _ = _ + 0
      cases hrequest : task.request? with
      | some request =>
          have htreats : Treats request s.memory (advance crates outside s.memory task) :=
            treats_advance hrequest
          rw [dropped, unanswered_singleton hrequest, ← add_assoc (responded s.memory),
            ← htreats.balance]
          abel
      | none =>
          obtain ⟨record, rfl⟩ := exists_record hrequest
          rw [dropped, unanswered_of_none hrequest]
          simp only [ite_self]
          rfl
  | leave task =>
      obtain ⟨others, hthreads, -, rfl⟩ := step_leave.mp h
      rw [hthreads, unanswered_cons, dropped]
      show _ = responded s.memory + (unanswered {task} + unanswered others) + 0
      abel
  | recover recovery =>
      obtain ⟨-, rfl⟩ := step_recover.mp h
      rfl

/-- The sum of what single steps bring. -/
theorem sum_toList {α β : Type} (f : α → Option β) (as : List α) :
    (as.map fun a => (↑(f a).toList : Multiset β)).sum = ↑(as.filterMap f) := by
  induction as with
  | nil => rfl
  | cons a as ih =>
      rw [List.map_cons, List.sum_cons, ih]
      cases hf : f a <;> simp [hf]

/-- What a run does to the requests. -/
theorem responded_of_run (hrun : Runs.run (step crates) s ops = some t) :
    responded t.memory + unanswered t.threads + Runs.credits (step crates) (dropped crates) s ops
      = responded s.memory + unanswered s.threads
        + ↑(ops.filterMap ServerAction.request?) := by
  have hstep : ∀ s a s', step crates s a = some s' →
      responded s'.memory + unanswered s'.threads + dropped crates s a
        = responded s.memory + unanswered s.threads + ↑a.request?.toList :=
    fun _ _ _ => responded_step
  rw [← sum_toList]
  exact Runs.run_add_credits _ hstep hrun

/-- **Every request is accounted for.**  Whatever happens in a run, each request that
arrived was answered once, or has a task that is to answer it, or was dropped in a step. -/
theorem accounted_for (hrun : Runs.run (step crates) (start state logs) ops = some t) :
    responded t.memory + unanswered t.threads
        + Runs.credits (step crates) (dropped crates) (start state logs) ops
      = ↑(ops.filterMap ServerAction.request?) :=
  (responded_of_run hrun).trans (zero_add _)

/-- A client asks for a chat completion and whether the server is there, and goes away
before the provider has answered. -/
def abandonedChat : List ServerAction :=
  [.arrive chat.request, .arrive .health, .advance (.limiting chat) .smooth,
    .advance (.retrying chat 59 chatRequest 0) .smooth,
    .leave (.retried chat 59 chatRequest 0 ⟨"tp-1"⟩)]

theorem accounted_for_abandoned :
    ∃ t, Runs.run (step .small) (start Serving.started .empty) abandonedChat = some t ∧
      responded t.memory + unanswered t.threads + Runs.credits (step .small) (dropped .small)
        (start Serving.started .empty) abandonedChat = {chat.request, .health} := by
  have hsome : (Runs.run (step .small) (start Serving.started .empty)
      abandonedChat).isSome = true := by decide +kernel
  obtain ⟨t, hrun⟩ := Option.isSome_iff_exists.mp hsome
  exact ⟨t, hrun, accounted_for hrun⟩

end Runs

end Server

end XiaomiProxy
