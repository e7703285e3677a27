import XiaomiProxy.Server

/-!
# A call by itself

The server takes a call step by step, with those of other tasks in between.  The functions
of the source read as if they took it at once: two layers (`RateLimit.enter`), a handler
(`ProxyRoute.handle`), and below it a forwarder with its loop over the attempts.

Both come to the same (`exists_run_alone`).  If the steps of a call follow one another, they
leave the response, the record, the pool and the requests that the functions say, whether
it is refused, answered, given up or panics, and whatever else is under way.
-/

namespace XiaomiProxy

/-- The pool a call of a forwarder leaves. -/
def Mode.pool (downstream : Forwarder.Downstream) (config : Config) (keyPool : KeyPool)
    (request : Forwarder.ClientRequest) : Mode → KeyPool
  | .retried => (Forwarder.forwardRequest downstream config keyPool request).pool
  | .streamed => (Forwarder.forwardStreaming downstream config keyPool request).pool

/-- What a forwarder returns. -/
def Mode.returned (downstream : Forwarder.Downstream) (config : Config) (keyPool : KeyPool)
    (request : Forwarder.ClientRequest) : Mode → Option Returned
  | .retried =>
      (Forwarder.forwardRequest downstream config keyPool request).result.map .whole
  | .streamed =>
      (Forwarder.forwardStreaming downstream config keyPool request).result.map .stream

/-- The task of a call that gets to its forwarder. -/
def Mode.first (call : Call) (remaining : UInt32) (request : Forwarder.ClientRequest) :
    Mode → Task
  | .retried => .retrying call remaining request 0
  | .streamed => .streaming call remaining request

/-- The pool a request leaves. -/
def ProxyRoute.leftPool (serde : SerdeJson) (downstream : Forwarder.Downstream)
    (state : AppState) (headers : HeaderMap) (body : Json) (route : ProxyRoute) : KeyPool :=
  match route.forwarded serde headers body with
  | none => state.keyPool
  | some (mode, request) => mode.pool downstream state.config state.keyPool request

/-- The memory after requests on behalf of a client key. -/
def ServerMemory.forwarded (m : ServerMemory) (keyPool : KeyPool) (clientKey : ClientKey)
    (sent : List DownstreamRequest) : ServerMemory :=
  { m with
    state := { m.state with keyPool }
    sent := m.sent ++ sent.map fun request => (clientKey, request) }

/-- A step of a call. -/
def ServerAction.isOf (call : Call) : ServerAction → Prop
  | .advance task _ => task.call? = some call
  | .arrive _ | .leave _ | .recover _ => False

namespace Server

/-- What becomes of a request that has the server to itself. -/
def alone (crates : Crates) (downstream : Forwarder.Downstream) (now : Instant)
    (elapsed : Duration) (m : ServerMemory) (route : ProxyRoute) (headers : HeaderMap)
    (body : Json) : Left :=
  let request := Request.proxy route headers body
  match RateLimit.enter { now, headers } m.state with
  | (state, .error (.unauthorized e)) =>
      (ServerMemory.respond { m with state } request (.json e.intoResponse), 0)
  | (state, .error (.limited response)) =>
      (ServerMemory.respond { m with state } request (.json response), 0)
  | (state, .ok (clientKey, remaining)) =>
      finish
        (ServerMemory.forwarded { m with state }
          (route.leftPool crates.serde downstream state headers body) clientKey
          (route.sends crates.serde downstream state headers body))
        request remaining
        (route.handle (.alone crates.serde downstream state elapsed) clientKey headers body)

section Alone

variable {crates : Crates} {downstream : Forwarder.Downstream} {elapsed : Duration}
  {m : ServerMemory} {call : Call} {remaining : UInt32} {request : Forwarder.ClientRequest}
  {others : Multiset Task} {keyPool : KeyPool} {acquired : AcquiredKey}

/-- What the outside makes of an attempt. -/
def during (downstream : Forwarder.Downstream) (elapsed : Duration) (attempt : ℕ)
    (sent : DownstreamRequest) : Outside :=
  { Outside.smooth with
    now := downstream.now attempt
    outcome := downstream.send attempt sent
    rng := downstream.rng attempt
    elapsed }

theorem reaches_advance (crates : Crates) (outside : Outside) (m : ServerMemory)
    (others : Multiset Task) {task : Task} (hcall : task.call? = some call) :
    Runs.ReachesBy (step crates) (ServerAction.isOf call) ⟨m, task ::ₘ others⟩
      ⟨(advance crates outside m task).1, (advance crates outside m task).2 + others⟩ :=
  .single (a := .advance task outside) hcall (step_advance.mpr ⟨others, rfl, rfl⟩)

/-- A task that goes on. -/
theorem reaches_next {m' : ServerMemory} {task task' : Task} (outside : Outside)
    (hcall : task.call? = some call)
    (hadvance : advance crates outside m task = (m', {task'})) :
    Runs.ReachesBy (step crates) (ServerAction.isOf call) ⟨m, task ::ₘ others⟩
      ⟨m', task' ::ₘ others⟩ := by
  have h := reaches_advance crates outside m others hcall
  rwa [hadvance, Multiset.singleton_add] at h

/-- A task that is over. -/
theorem reaches_end {left : Left} {task : Task} (outside : Outside)
    (hcall : task.call? = some call) (hadvance : advance crates outside m task = left) :
    Runs.ReachesBy (step crates) (ServerAction.isOf call) ⟨m, task ::ₘ others⟩
      ⟨left.1, left.2 + others⟩ :=
  hadvance ▸ reaches_advance crates outside m others hcall

/-! ## Where a call ends -/

/-- A call whose forwarder leaves this pool, after these requests, and returns. -/
def ended (crates : Crates) (elapsed : Duration) (m : ServerMemory) (call : Call)
    (remaining : UInt32) (keyPool : KeyPool) (sent : List DownstreamRequest)
    (returned : Option Returned) : Left :=
  finish (m.forwarded keyPool call.clientKey sent) call.request remaining
    (call.handled crates elapsed returned)

theorem forwarded_nil (m : ServerMemory) (keyPool : KeyPool) (clientKey : ClientKey) :
    m.forwarded keyPool clientKey [] = m.setPool keyPool := by
  simp [ServerMemory.forwarded, ServerMemory.setPool]

theorem forwarded_forwarded (m : ServerMemory) (keyPool keyPool' : KeyPool)
    (clientKey : ClientKey) (sent sent' : List DownstreamRequest) :
    (m.forwarded keyPool clientKey sent).forwarded keyPool' clientKey sent'
      = m.forwarded keyPool' clientKey (sent ++ sent') := by
  simp [ServerMemory.forwarded]

/-- What was sent before is not lost. -/
theorem ended_forwarded (sent sent' : List DownstreamRequest) (keyPool' : KeyPool)
    (returned : Option Returned) :
    ended crates elapsed (m.forwarded keyPool call.clientKey sent) call remaining keyPool'
        sent' returned
      = ended crates elapsed m call remaining keyPool' (sent ++ sent') returned := by
  rw [ended, forwarded_forwarded, ended]

theorem issue_setPool (sent : DownstreamRequest) :
    (m.setPool keyPool).issue call.clientKey sent
      = m.forwarded keyPool call.clientKey [sent] := rfl

/-- A handler whose forwarder panics is over. -/
theorem handled_none {mode : Mode}
    (hforwarded : call.route.forwarded crates.serde call.headers call.body
      = some (mode, request)) :
    call.handled crates elapsed none = { spawned := none, result := none } := by
  cases mode with
  | retried =>
      obtain ⟨next, hnext⟩ := ProxyRoute.handle_retried call.clientKey elapsed hforwarded
      rw [Call.handled, hnext]
      rfl
  | streamed =>
      obtain ⟨next, hnext⟩ := ProxyRoute.handle_streamed call.clientKey elapsed hforwarded
      rw [Call.handled, hnext]
      rfl

theorem ended_none {mode : Mode} (sent : List DownstreamRequest)
    (hforwarded : call.route.forwarded crates.serde call.headers call.body
      = some (mode, request)) :
    ended crates elapsed m call remaining keyPool sent none
      = (m.forwarded keyPool call.clientKey sent, 0) := by
  rw [ended, handled_none hforwarded]
  rfl

/-! ## The attempts -/

/-- An answer with its body. -/
def read (resp : Response) : Returned :=
  .whole (match resp.bytes with
    | .error e => .error (AppError.ofReqwest e)
    | .ok respBody => .ok (respBody, resp.status, resp.headers))

/-- What `forward_request` makes of a run of `with_retry`. -/
def whole : Option (Except AppError (Response × AcquiredKey)) → Option Returned
  | none => none
  | some (.error e) => some (.whole (.error e))
  | some (.ok (resp, _)) => some (read resp)

/-- Where a call ends whose attempts run like this. -/
def endedBy (crates : Crates) (elapsed : Duration) (m : ServerMemory) (call : Call)
    (remaining : UInt32) (request : Forwarder.ClientRequest) (run : Retry.Run) : Left :=
  ended crates elapsed m call remaining run.pool
    (Forwarder.sendsBy m.state.config request run.events) (whole run.result)

/-- A run that goes on after some events, with the memory they leave. -/
theorem endedBy_after (keyPool : KeyPool) (es : List Retry.Event) (run : Retry.Run) :
    endedBy crates elapsed m call remaining request (.after es run)
      = endedBy crates elapsed (m.forwarded keyPool call.clientKey
          (Forwarder.sendsBy m.state.config request es)) call remaining request run := by
  rw [endedBy, endedBy, ended_forwarded, Retry.Run.after, Forwarder.sendsBy,
    Forwarder.sendsBy, Forwarder.sendsBy, List.filterMap_append]
  rfl

/-- An attempt that gets a key sends its request, if it can be built. -/
theorem reaches_retried (attempt : ℕ) {sent : DownstreamRequest}
    (hacquire : m.state.keyPool.acquireKey = (keyPool, .ok acquired))
    (hsent : Forwarder.downstreamRequest m.state.config request acquired.key = some sent) :
    Runs.ReachesBy (step crates) (ServerAction.isOf call)
      ⟨m, .retrying call remaining request attempt ::ₘ others⟩
      ⟨m.forwarded keyPool call.clientKey [sent],
        .retried call remaining request attempt acquired ::ₘ others⟩ := by
  refine reaches_next .smooth rfl ?_
  rw [advance, retrying, hacquire]
  show send (m.setPool keyPool) call request acquired _ = _
  rw [send, show Forwarder.downstreamRequest (m.setPool keyPool).state.config request
    acquired.key = some sent from hsent]
  exact congrArg (·, _) (issue_setPool sent)

theorem reaches_unbuilt (attempt : ℕ)
    (hacquire : m.state.keyPool.acquireKey = (keyPool, .ok acquired))
    (hsent : Forwarder.downstreamRequest m.state.config request acquired.key = none) :
    Runs.ReachesBy (step crates) (ServerAction.isOf call)
      ⟨m, .retrying call remaining request attempt ::ₘ others⟩
      ⟨m.setPool keyPool, 0 + others⟩ := by
  have hsend : advance crates .smooth m (.retrying call remaining request attempt)
      = (m.setPool keyPool, 0) := by
    rw [advance, retrying, hacquire]
    show send (m.setPool keyPool) call request acquired _ = _
    rw [send, show Forwarder.downstreamRequest (m.setPool keyPool).state.config request
      acquired.key = none from hsent]
  exact reaches_end .smooth rfl hsend

/-- An answer that ends the call is reported as a success, and then read. -/
theorem reaches_returned (attempt : ℕ) (outside : Outside) {resp : Response}
    (hanswer : outside.outcome = .ok resp)
    (hterminal : Retry.terminal (.ok resp) = true) (helapsed : outside.elapsed = elapsed) :
    Runs.ReachesBy (step crates) (ServerAction.isOf call)
      ⟨m, .retried call remaining request attempt acquired ::ₘ others⟩
      ⟨(endedBy crates elapsed m call remaining request
          (Retry.returnArm m.state.keyPool acquired resp)).1,
        (endedBy crates elapsed m call remaining request
          (Retry.returnArm m.state.keyPool acquired resp)).2 + others⟩ := by
  have hretryable : Retry.isRetryable resp.status = false := by
    simpa [Retry.terminal] using hterminal
  have hreported : advance crates outside m
      (.retried call remaining request attempt acquired)
        = (m.setPool (m.state.keyPool.reportSuccess acquired),
          {.reading call remaining (read resp)}) := by
    rw [advance, retried, hanswer]
    simp only [hretryable, Bool.and_false, Bool.false_eq_true, if_false]
    rfl
  refine (reaches_next outside rfl hreported).trans (reaches_end outside rfl ?_)
  rw [advance, reading, helapsed, endedBy, ended, Retry.returnArm, Forwarder.sendsBy,
    List.filterMap_cons_none rfl, List.filterMap_nil, forwarded_nil]
  rfl

/-- A failed attempt is reported; then the call is over, or goes on as `next` says. -/
theorem reaches_failed {attempt : ℕ} (outside : Outside) {env : Retry.Env}
    {next : KeyPool → Retry.Run}
    (hforwarded : call.route.forwarded crates.serde call.headers call.body
      = some (.retried, request))
    (hfailed : advance crates outside m (.retried call remaining request attempt acquired)
      = failed crates outside m call remaining request attempt acquired)
    (hnow : outside.now = env.now attempt) (hrng : outside.rng = env.rng attempt)
    (hnext : ∀ keyPool, attempt < m.state.config.downstream.maxRetries.toNat →
      Runs.ReachesBy (step crates) (ServerAction.isOf call)
        ⟨m.setPool keyPool, .retrying call remaining request (attempt + 1) ::ₘ others⟩
        ⟨(endedBy crates elapsed (m.setPool keyPool) call remaining request
            (next keyPool)).1,
          (endedBy crates elapsed (m.setPool keyPool) call remaining request
            (next keyPool)).2 + others⟩)
    (hlast : ∀ keyPool, ¬ attempt < m.state.config.downstream.maxRetries.toNat →
      finish (m.setPool keyPool) call.request remaining (call.handled crates outside.elapsed
          (some (.whole (.error (Retry.lastError outside.outcome)))))
        = endedBy crates elapsed (m.setPool keyPool) call remaining request
          (next keyPool)) :
    let run := Retry.failureArm env m.state.config.downstream.maxRetries
      m.state.config.downstream.retryBaseMs attempt m.state.keyPool acquired next
    Runs.ReachesBy (step crates) (ServerAction.isOf call)
      ⟨m, .retried call remaining request attempt acquired ::ₘ others⟩
      ⟨(endedBy crates elapsed m call remaining request run).1,
        (endedBy crates elapsed m call remaining request run).2 + others⟩ := by
  intro run
  have hstep := hfailed
  rw [failed, hnow, hrng] at hstep
  have hrun : run = Retry.failureArm env m.state.config.downstream.maxRetries
    m.state.config.downstream.retryBaseMs attempt m.state.keyPool acquired next := rfl
  rw [Retry.failureArm] at hrun
  generalize m.state.keyPool.reportFailure (env.now attempt) acquired = report at hstep hrun
  -- a report that panics leaves a pool, and nothing else
  have hover : ∀ keyPool, run = { pool := keyPool
                                  events := [.failed (env.now attempt) acquired]
                                  result := none } →
      endedBy crates elapsed m call remaining request run = (m.setPool keyPool, 0) := by
    intro keyPool heq
    rw [heq, endedBy]
    refine (ended_none _ hforwarded).trans ?_
    exact congrArg (·, _) (forwarded_nil _ _ _)
  rcases report with ⟨keyPool, - | u⟩
  · rw [hover keyPool hrun]
    exact reaches_end outside rfl hstep
  · simp only at hstep hrun
    cases hdelay : Retry.calculateDelay (env.rng attempt)
        m.state.config.downstream.retryBaseMs (UInt32.ofNat attempt) with
    | none =>
        rw [hdelay] at hstep hrun
        rw [hover keyPool hrun]
        exact reaches_end outside rfl hstep
    | some delay =>
        rw [hdelay] at hstep hrun
        simp only at hstep hrun
        have hends : endedBy crates elapsed m call remaining request run
            = endedBy crates elapsed (m.setPool keyPool) call remaining request
              (next keyPool) := by
          rw [hrun, endedBy_after keyPool, ← forwarded_nil m keyPool call.clientKey]
          congr 2
          split <;> rfl
        rw [hends]
        by_cases hattempt : attempt < m.state.config.downstream.maxRetries.toNat
        · rw [if_pos hattempt] at hstep
          exact (reaches_next outside rfl hstep).trans (hnext keyPool hattempt)
        · rw [if_neg hattempt, hlast keyPool hattempt] at hstep
          exact reaches_end outside rfl hstep

/-- Where a call ends that failed for the last time. -/
theorem endedBy_exhausted (keyPool : KeyPool) (e : AppError) :
    endedBy crates elapsed (m.setPool keyPool) call remaining request
        { pool := keyPool, events := [], result := some (.error e) }
      = finish (m.setPool keyPool) call.request remaining
        (call.handled crates elapsed (some (.whole (.error e)))) := by
  rw [endedBy, ended, Forwarder.sendsBy, List.filterMap_nil, forwarded_nil]
  rfl

/-- One attempt, if those that follow are the ones of `with_retry`. -/
theorem reaches_attempt {n attempt : ℕ} (last : Option AppError)
    (hforwarded : call.route.forwarded crates.serde call.headers call.body
      = some (.retried, request))
    (hlast : ¬ attempt < m.state.config.downstream.maxRetries.toNat → n = 0)
    (hnext : ∀ keyPool sent last, attempt < m.state.config.downstream.maxRetries.toNat →
      let run := Retry.loop (Forwarder.retryEnv downstream m.state.config request)
        m.state.config.downstream.maxRetries m.state.config.downstream.retryBaseMs n
        (attempt + 1) last keyPool
      let m' := m.forwarded keyPool call.clientKey sent
      Runs.ReachesBy (step crates) (ServerAction.isOf call)
        ⟨m', .retrying call remaining request (attempt + 1) ::ₘ others⟩
        ⟨(endedBy crates elapsed m' call remaining request run).1,
          (endedBy crates elapsed m' call remaining request run).2 + others⟩) :
    let run := Retry.loop (Forwarder.retryEnv downstream m.state.config request)
      m.state.config.downstream.maxRetries m.state.config.downstream.retryBaseMs (n + 1)
      attempt last m.state.keyPool
    Runs.ReachesBy (step crates) (ServerAction.isOf call)
      ⟨m, .retrying call remaining request attempt ::ₘ others⟩
      ⟨(endedBy crates elapsed m call remaining request run).1,
        (endedBy crates elapsed m call remaining request run).2 + others⟩ := by
  intro run
  rcases hacquire : m.state.keyPool.acquireKey with ⟨keyPool, e | acquired⟩
  · have hrun : run = _ := Retry.loop_of_refused hacquire
    rw [hrun, endedBy, ended, Forwarder.sendsBy, List.filterMap_cons_none rfl,
      List.filterMap_nil, forwarded_nil]
    refine reaches_end { Outside.smooth with elapsed } rfl ?_
    rw [advance, retrying, hacquire]
    rfl
  · cases hsent : Forwarder.downstreamRequest m.state.config request acquired.key with
    | none =>
        have hrequest : (Forwarder.retryEnv downstream m.state.config request).makeRequest
            attempt acquired.key = none := by
          simp only [Forwarder.retryEnv, hsent, Option.map_none]
        have hrun : endedBy crates elapsed m call remaining request run
            = (m.setPool keyPool, 0) := by
          simp only [run, Retry.loop, hacquire, hrequest, Retry.Run.after]
          rw [endedBy, show whole none = none from rfl]
          refine (ended_none _ hforwarded).trans ?_
          simp [Forwarder.sendsBy, hsent, forwarded_nil]
        rw [hrun]
        exact reaches_unbuilt attempt hacquire hsent
    | some sent =>
        have hrequest : (Forwarder.retryEnv downstream m.state.config request).makeRequest
            attempt acquired.key = some (downstream.send attempt sent) := by
          simp only [Forwarder.retryEnv, hsent, Option.map_some]
        have hsends : Forwarder.sendsBy m.state.config request
            [.acquired acquired, .requested acquired.key] = [sent] := by
          simp [Forwarder.sendsBy, hsent]
        refine (reaches_retried attempt hacquire hsent).trans ?_
        cases hterminal : Retry.terminal (downstream.send attempt sent) with
        | true =>
            cases hanswer : downstream.send attempt sent with
            | error e =>
                rw [hanswer] at hterminal
                cases hterminal
            | ok resp =>
                rw [hanswer] at hrequest hterminal
                have hrun : run = _ := Retry.loop_of_terminal hacquire hrequest hterminal
                rw [hrun, endedBy_after keyPool, hsends]
                exact reaches_returned attempt (during downstream elapsed attempt sent)
                  hanswer hterminal rfl
        | false =>
            have hrun : run = _ := Retry.loop_of_failure hacquire hrequest hterminal
            rw [hrun, endedBy_after keyPool, hsends]
            refine reaches_failed (during downstream elapsed attempt sent) hforwarded ?_ rfl
              rfl ?_ ?_
            · have houtcome : (during downstream elapsed attempt sent).outcome
                  = downstream.send attempt sent := rfl
              rw [advance, retried, houtcome]
              cases hanswer : downstream.send attempt sent with
              | error e => rfl
              | ok resp =>
                  rw [hanswer] at hterminal
                  have hretryable : Retry.isRetryable resp.status = true := by
                    simpa [Retry.terminal] using hterminal
                  have hsuccess : resp.status.isSuccess = false := by
                    by_contra hne
                    rw [Retry.isRetryable_of_isSuccess (by simpa using hne)] at hretryable
                    cases hretryable
                  simp only [hretryable, hsuccess]
                  rfl
            · intro keyPool' hattempt
              exact hnext keyPool' [sent] _ hattempt
            · intro keyPool' hattempt
              rw [hlast hattempt]
              exact (endedBy_exhausted keyPool' _).symm

/-- **The attempts of a call are those of `with_retry`.**  By induction on the attempts
that are left. -/
theorem reaches_loop {n attempt : ℕ} (last : Option AppError)
    (hforwarded : call.route.forwarded crates.serde call.headers call.body
      = some (.retried, request))
    (hattempts : attempt + n = m.state.config.downstream.maxRetries.toNat) :
    let run := Retry.loop (Forwarder.retryEnv downstream m.state.config request)
      m.state.config.downstream.maxRetries m.state.config.downstream.retryBaseMs (n + 1)
      attempt last m.state.keyPool
    Runs.ReachesBy (step crates) (ServerAction.isOf call)
      ⟨m, .retrying call remaining request attempt ::ₘ others⟩
      ⟨(endedBy crates elapsed m call remaining request run).1,
        (endedBy crates elapsed m call remaining request run).2 + others⟩ := by
  induction n generalizing m attempt last with
  | zero =>
      refine reaches_attempt last hforwarded (fun _ => rfl) ?_
      intro keyPool sent last hattempt
      omega
  | succ n ih =>
      refine reaches_attempt last hforwarded (fun hattempt => ?_) ?_
      · omega
      · intro keyPool sent last hattempt
        refine ih (m := m.forwarded keyPool call.clientKey sent) last ?_
        show attempt + 1 + n = m.state.config.downstream.maxRetries.toNat
        omega

/-! ## The stream -/

/-- What `forward_streaming` makes of an answer that is no success. -/
def refusal (resp : Response) : Except AppError ClientResponse :=
  let errBody := match resp.text with
    | .ok text => text
    | .error _ => ""
  .error (.downstream ("HTTP " ++ toString resp.status.asU16.toNat ++ ": " ++ errBody))

/-- Where a streamed call ends. -/
def endedStreaming (crates : Crates) (downstream : Forwarder.Downstream) (elapsed : Duration)
    (m : ServerMemory) (call : Call) (remaining : UInt32)
    (request : Forwarder.ClientRequest) : Left :=
  let forwarded :=
    Forwarder.forwardStreaming downstream m.state.config m.state.keyPool request
  ended crates elapsed m call remaining forwarded.pool
    (Forwarder.sendsBy m.state.config request forwarded.events)
    (forwarded.result.map .stream)

/-- A streamed call that gets no key is over. -/
theorem reaches_stream_refused {e : AppError}
    (hacquire : m.state.keyPool.acquireKey = (keyPool, .error e)) :
    let left := endedStreaming crates downstream elapsed m call remaining request
    Runs.ReachesBy (step crates) (ServerAction.isOf call)
      ⟨m, .streaming call remaining request ::ₘ others⟩ ⟨left.1, left.2 + others⟩ := by
  intro left
  have hleft : left = ended crates elapsed m call remaining keyPool []
      (some (.stream (.error e))) := by
    simp only [left, endedStreaming, Forwarder.forwardStreaming, hacquire]
    rfl
  rw [hleft, ended, forwarded_nil]
  refine reaches_end { Outside.smooth with elapsed } rfl ?_
  rw [advance, streaming, hacquire]

/-- A request that is sent is the only one. -/
theorem sendsBy_streamed {sent : DownstreamRequest}
    (hsent : Forwarder.downstreamRequest m.state.config request acquired.key = some sent)
    (es : List Retry.Event) (hes : Forwarder.sendsBy m.state.config request es = []) :
    Forwarder.sendsBy m.state.config request
      ([.acquired acquired, .requested acquired.key] ++ es) = [sent] := by
  rw [Forwarder.sendsBy, List.filterMap_append]
  rw [Forwarder.sendsBy] at hes
  rw [hes]
  simp [hsent]

section Acquired

variable (hacquire : m.state.keyPool.acquireKey = (keyPool, .ok acquired))
include hacquire

/-- One whose request cannot be built panics. -/
theorem reaches_stream_unbuilt
    (hforwarded : call.route.forwarded crates.serde call.headers call.body
      = some (.streamed, request))
    (hsent : Forwarder.downstreamRequest m.state.config request acquired.key = none) :
    let left := endedStreaming crates downstream elapsed m call remaining request
    Runs.ReachesBy (step crates) (ServerAction.isOf call)
      ⟨m, .streaming call remaining request ::ₘ others⟩ ⟨left.1, left.2 + others⟩ := by
  intro left
  have hleft : left = (m.setPool keyPool, 0) := by
    simp only [left, endedStreaming, Forwarder.forwardStreaming, hacquire, hsent,
      Option.map_none]
    refine (ended_none _ hforwarded).trans ?_
    simp [Forwarder.sendsBy, hsent, forwarded_nil]
  rw [hleft]
  refine reaches_end .smooth rfl ?_
  rw [advance, streaming, hacquire]
  show send (m.setPool keyPool) call request acquired _ = _
  rw [send, show Forwarder.downstreamRequest (m.setPool keyPool).state.config request
    acquired.key = none from hsent]

section Sent

variable {sent : DownstreamRequest}
  (hsent : Forwarder.downstreamRequest m.state.config request acquired.key = some sent)
include hsent

/-- Any other one sends its request. -/
theorem reaches_streamed :
    Runs.ReachesBy (step crates) (ServerAction.isOf call)
      ⟨m, .streaming call remaining request ::ₘ others⟩
      ⟨m.forwarded keyPool call.clientKey [sent],
        .streamed call remaining acquired ::ₘ others⟩ := by
  refine reaches_next .smooth rfl ?_
  rw [advance, streaming, hacquire]
  show send (m.setPool keyPool) call request acquired _ = _
  rw [send, show Forwarder.downstreamRequest (m.setPool keyPool).state.config request
    acquired.key = some sent from hsent]
  exact congrArg (·, _) (issue_setPool sent)

/-- Without an answer, it is over. -/
theorem reaches_stream_unanswered {e : ReqwestError}
    (hanswer : downstream.send 0 sent = .error e) :
    let left := endedStreaming crates downstream elapsed m call remaining request
    Runs.ReachesBy (step crates) (ServerAction.isOf call)
      ⟨m.forwarded keyPool call.clientKey [sent],
        .streamed call remaining acquired ::ₘ others⟩ ⟨left.1, left.2 + others⟩ := by
  intro left
  have hleft : left = ended crates elapsed m call remaining keyPool [sent]
      (some (.stream (.error (AppError.ofReqwest e)))) := by
    simp only [left, endedStreaming, Forwarder.forwardStreaming, hacquire, hsent, hanswer,
      Option.map_some]
    rw [← sendsBy_streamed hsent [] rfl, List.append_nil]
  have houtcome : (during downstream elapsed 0 sent).outcome = .error e := hanswer
  rw [hleft]
  refine reaches_end (during downstream elapsed 0 sent) rfl ?_
  rw [advance, streamed, houtcome]
  rfl

/-- A success is reported, and streamed. -/
theorem reaches_stream_success {resp : Response}
    (hanswer : downstream.send 0 sent = .ok resp) (hsuccess : resp.status.isSuccess = true) :
    let left := endedStreaming crates downstream elapsed m call remaining request
    Runs.ReachesBy (step crates) (ServerAction.isOf call)
      ⟨m.forwarded keyPool call.clientKey [sent],
        .streamed call remaining acquired ::ₘ others⟩ ⟨left.1, left.2 + others⟩ := by
  intro left
  have hleft : left = ended crates elapsed m call remaining
      (keyPool.reportSuccess acquired) [sent] (some (.stream (.ok
        { status := resp.status
          headers := resp.headers
          body := resp.bytes }))) := by
    simp only [left, endedStreaming, Forwarder.forwardStreaming, hacquire, hsent, hanswer,
      hsuccess, Bool.not_true, Bool.false_eq_true, if_false, Option.map_some]
    rw [← sendsBy_streamed hsent [.succeeded acquired] rfl]
  have houtcome : (during downstream elapsed 0 sent).outcome = .ok resp := hanswer
  rw [hleft]
  refine reaches_end (during downstream elapsed 0 sent) rfl ?_
  rw [advance, streamed, houtcome]
  simp only [hsuccess, Bool.not_true, Bool.false_eq_true, if_false]
  rfl

/-- Any other status is reported as a failure, and its body is read for the error. -/
theorem reaches_stream_failure
    (hforwarded : call.route.forwarded crates.serde call.headers call.body
      = some (.streamed, request)) {resp : Response}
    (hanswer : downstream.send 0 sent = .ok resp)
    (hsuccess : resp.status.isSuccess = false) :
    let left := endedStreaming crates downstream elapsed m call remaining request
    Runs.ReachesBy (step crates) (ServerAction.isOf call)
      ⟨m.forwarded keyPool call.clientKey [sent],
        .streamed call remaining acquired ::ₘ others⟩ ⟨left.1, left.2 + others⟩ := by
  intro left
  have hleft : left = ended crates elapsed m call remaining
      (keyPool.reportFailure (downstream.now 0) acquired).1 [sent]
      ((keyPool.reportFailure (downstream.now 0) acquired).2.map fun _ =>
        .stream (refusal resp)) := by
    simp only [left, endedStreaming, Forwarder.forwardStreaming, hacquire, hsent, hanswer,
      hsuccess, Bool.not_false, if_true, Option.map_map]
    rw [← sendsBy_streamed hsent [.failed (downstream.now 0) acquired] rfl]
    rfl
  let m' := m.forwarded keyPool call.clientKey [sent]
  let outside := during downstream elapsed 0 sent
  have houtcome : outside.outcome = .ok resp := hanswer
  have hstreamed : advance crates outside m' (.streamed call remaining acquired)
      = streamed crates outside m' call remaining acquired := rfl
  rw [hleft]
  rcases hreport : keyPool.reportFailure (downstream.now 0) acquired with ⟨keyPool', - | u⟩
  · have hreport' : m'.state.keyPool.reportFailure outside.now acquired
      = (keyPool', none) := hreport
    have hstep : advance crates outside m' (.streamed call remaining acquired)
        = (m'.setPool keyPool', 0) := by
      rw [hstreamed, streamed, houtcome]
      simp only [hsuccess, Bool.not_false, if_true, hreport']
    rw [Option.map_none, ended_none _ hforwarded]
    exact reaches_end _ rfl hstep
  · have hreport' : m'.state.keyPool.reportFailure outside.now acquired
      = (keyPool', some ()) := hreport
    have hstep : advance crates outside m' (.streamed call remaining acquired)
        = (m'.setPool keyPool', {.reading call remaining (.stream (refusal resp))}) := by
      rw [hstreamed, streamed, houtcome]
      simp only [hsuccess, Bool.not_false, if_true, hreport']
      rfl
    exact (reaches_next _ rfl hstep).trans (reaches_end outside rfl rfl)

end Sent

end Acquired

/-- **The steps of a streamed call are those of `forward_streaming`.** -/
theorem reaches_streaming
    (hforwarded : call.route.forwarded crates.serde call.headers call.body
      = some (.streamed, request)) :
    let left := endedStreaming crates downstream elapsed m call remaining request
    Runs.ReachesBy (step crates) (ServerAction.isOf call)
      ⟨m, .streaming call remaining request ::ₘ others⟩ ⟨left.1, left.2 + others⟩ := by
  intro left
  rcases hacquire : m.state.keyPool.acquireKey with ⟨keyPool, e | acquired⟩
  · exact reaches_stream_refused hacquire
  · cases hsent : Forwarder.downstreamRequest m.state.config request acquired.key with
    | none => exact reaches_stream_unbuilt hacquire hforwarded hsent
    | some sent =>
        refine (reaches_streamed hacquire hsent).trans ?_
        cases hanswer : downstream.send 0 sent with
        | error e => exact reaches_stream_unanswered hacquire hsent hanswer
        | ok resp =>
            cases hsuccess : resp.status.isSuccess with
            | true => exact reaches_stream_success hacquire hsent hanswer hsuccess
            | false =>
                exact reaches_stream_failure hacquire hsent hforwarded hanswer hsuccess

/-! ## The handler -/

/-- A body that cannot be written does not get to a forwarder. -/
theorem handle_unforwarded {serde : SerdeJson} {headers : HeaderMap} {body : Json}
    {route : ProxyRoute} (elapsed : Duration) (clientKey : ClientKey)
    (h : route.forwarded serde headers body = none) :
    ∃ handled, ∀ forwardRequest forwardStreaming,
      route.handle { serde, forwardRequest, forwardStreaming, elapsed } clientKey headers body
        = handled := by
  cases route with
  | listModels => cases h
  | model route =>
      rw [ProxyRoute.forwarded] at h
      cases hbytes : serde.toVec body with
      | error e =>
          cases route <;>
            simp only [ProxyRoute.handle, ModelRoute.handle, Handlers.chatCompletions,
              Handlers.completions, Handlers.embeddings, Handlers.messages,
              Handlers.modelCall, Handlers.plainCall, hbytes, Except.mapError,
              Handled.andThen] <;>
            exact ⟨_, fun _ _ => rfl⟩
      | ok bytes =>
          rw [hbytes] at h
          cases h

/-- A handler that gets to a forwarder goes on with what that returns. -/
theorem handle_alone {mode : Mode} (state : AppState)
    (hforwarded : call.route.forwarded crates.serde call.headers call.body
      = some (mode, request)) :
    call.route.handle (.alone crates.serde downstream state elapsed) call.clientKey
        call.headers call.body
      = call.handled crates elapsed
        (mode.returned downstream state.config state.keyPool request) := by
  cases mode with
  | retried =>
      obtain ⟨next, hnext⟩ := ProxyRoute.handle_retried call.clientKey elapsed hforwarded
      rw [Call.handled, hnext, Handlers.Env.alone, hnext, Mode.returned]
      cases (Forwarder.forwardRequest downstream state.config state.keyPool
        request).result <;> rfl
  | streamed =>
      obtain ⟨next, hnext⟩ := ProxyRoute.handle_streamed call.clientKey elapsed hforwarded
      rw [Call.handled, hnext, Handlers.Env.alone, hnext, Mode.returned]
      cases (Forwarder.forwardStreaming downstream state.config state.keyPool
        request).result <;> rfl

theorem whole_withRetry (config : Config) (keyPool : KeyPool) :
    whole (Retry.withRetry (Forwarder.retryEnv downstream config request)
        config.downstream.maxRetries config.downstream.retryBaseMs keyPool).result
      = Mode.retried.returned downstream config keyPool request := by
  simp only [Mode.returned, Forwarder.forwardRequest]
  rcases (Retry.withRetry (Forwarder.retryEnv downstream config request)
    config.downstream.maxRetries config.downstream.retryBaseMs keyPool).result with
    - | e | ⟨resp, acquired⟩ <;> rfl

/-- The steps of a forwarder. -/
theorem reaches_forwarded {mode : Mode}
    (hforwarded : call.route.forwarded crates.serde call.headers call.body
      = some (mode, request)) :
    let left := ended crates elapsed m call remaining
      (mode.pool downstream m.state.config m.state.keyPool request)
      (Forwarder.sendsBy m.state.config request
        (mode.events downstream m.state.config m.state.keyPool request))
      (mode.returned downstream m.state.config m.state.keyPool request)
    Runs.ReachesBy (step crates) (ServerAction.isOf call)
      ⟨m, mode.first call remaining request ::ₘ others⟩ ⟨left.1, left.2 + others⟩ := by
  cases mode with
  | retried =>
      rw [← whole_withRetry]
      exact reaches_loop none hforwarded (zero_add _)
  | streamed => exact reaches_streaming hforwarded

end Alone

section Enter

variable {crates : Crates} {downstream : Forwarder.Downstream} {now : Instant}
  {elapsed : Duration} {m : ServerMemory} {route : ProxyRoute} {headers : HeaderMap}
  {body : Json} {state : AppState}

theorem alone_of_unauthorized {e : AppError}
    (h : RateLimit.enter { now, headers } m.state = (state, .error (.unauthorized e))) :
    alone crates downstream now elapsed m route headers body
      = (ServerMemory.respond { m with state } (.proxy route headers body)
          (.json e.intoResponse), 0) := by
  unfold alone
  rw [h]

theorem alone_of_limited {response : JsonResponse}
    (h : RateLimit.enter { now, headers } m.state = (state, .error (.limited response))) :
    alone crates downstream now elapsed m route headers body
      = (ServerMemory.respond { m with state } (.proxy route headers body)
          (.json response), 0) := by
  unfold alone
  rw [h]

theorem alone_of_checked {clientKey : ClientKey} {remaining : UInt32}
    (h : RateLimit.enter { now, headers } m.state = (state, .ok (clientKey, remaining))) :
    alone crates downstream now elapsed m route headers body
      = finish
        (ServerMemory.forwarded { m with state }
          (route.leftPool crates.serde downstream state headers body) clientKey
          (route.sends crates.serde downstream state headers body))
        (.proxy route headers body) remaining
        (route.handle (.alone crates.serde downstream state elapsed) clientKey headers
          body) := by
  unfold alone
  rw [h]

/-- A request without one is turned away. -/
theorem arriving_of_unauthorized {e : AppError}
    (h : Auth.auth m.state.clientKeys headers = .error e) :
    arriving m (.proxy route headers body)
      = (m.respond (.proxy route headers body) (.json e.intoResponse), 0) := by
  rw [arriving]
  split
  · rename_i e' herror
    obtain rfl := Except.error.inj (herror.symm.trans h)
    rfl
  · rename_i clientKey hok
    cases hok.symm.trans h

/-- A request with a client key of the cache is taken for a call. -/
theorem arriving_of_auth {clientKey : ClientKey}
    (h : Auth.auth m.state.clientKeys headers = .ok clientKey) :
    arriving m (.proxy route headers body) = (m, {.limiting
      { route, headers, body, clientKey, shown := Auth.extractKey_of_auth h }}) := by
  rw [arriving]
  split
  · rename_i e herror
    cases herror.symm.trans h
  · rename_i clientKey' hok
    obtain rfl := Except.ok.inj (hok.symm.trans h)
    rfl

section Limiting

variable {outside : Outside} {call : Call} {rateLimiter : RateLimiter}

theorem limiting_of_limited {response : JsonResponse}
    (h : RateLimit.rateLimit outside.now m.state.rateLimiter (some call.clientKey)
      = (rateLimiter, .error response)) :
    advance crates outside m (.limiting call)
      = ((m.setLimiter rateLimiter).respond call.request (.json response), 0) := by
  rw [advance]
  unfold limiting
  rw [h]

theorem limiting_of_unforwarded {remaining : UInt32}
    (h : RateLimit.rateLimit outside.now m.state.rateLimiter (some call.clientKey)
      = (rateLimiter, .ok remaining))
    (hforwarded : call.route.forwarded crates.serde call.headers call.body = none) :
    advance crates outside m (.limiting call)
      = finish (m.setLimiter rateLimiter) call.request remaining
        (call.handled crates outside.elapsed none) := by
  rw [advance]
  unfold limiting
  rw [h]
  simp only [hforwarded]

theorem limiting_of_forwarded {remaining : UInt32} {mode : Mode}
    {request : Forwarder.ClientRequest}
    (h : RateLimit.rateLimit outside.now m.state.rateLimiter (some call.clientKey)
      = (rateLimiter, .ok remaining))
    (hforwarded : call.route.forwarded crates.serde call.headers call.body
      = some (mode, request)) :
    advance crates outside m (.limiting call)
      = (m.setLimiter rateLimiter, {mode.first call remaining request}) := by
  rw [advance]
  unfold limiting
  rw [h]
  simp only [hforwarded]
  cases mode <;> rfl

end Limiting

/-- The check of a call, and what follows. -/
theorem reaches_limiting (crates : Crates) (downstream : Forwarder.Downstream)
    (now : Instant) (elapsed : Duration) (m : ServerMemory) (others : Multiset Task)
    (call : Call)
    (hauth : Auth.auth m.state.clientKeys call.headers = .ok call.clientKey) :
    Runs.ReachesBy (step crates) (ServerAction.isOf call) ⟨m, .limiting call ::ₘ others⟩
      ⟨(alone crates downstream now elapsed m call.route call.headers call.body).1,
        (alone crates downstream now elapsed m call.route call.headers call.body).2
          + others⟩ := by
  rcases hchecked : RateLimit.rateLimit now m.state.rateLimiter (some call.clientKey) with
    ⟨rateLimiter, response | remaining⟩
  · have hstep : advance crates { Outside.smooth with now } m (.limiting call)
        = ((m.setLimiter rateLimiter).respond call.request (.json response), 0) :=
      limiting_of_limited hchecked
    rw [alone_of_limited (RateLimit.enter_of_limited hauth hchecked)]
    exact reaches_end _ rfl hstep
  · rw [alone_of_checked (RateLimit.enter_of_checked hauth hchecked)]
    cases hforwarded : call.route.forwarded crates.serde call.headers call.body with
    | none =>
        have hstep : advance crates { Outside.smooth with now, elapsed } m (.limiting call)
            = finish (m.setLimiter rateLimiter) call.request remaining
              (call.handled crates elapsed none) :=
          limiting_of_unforwarded hchecked hforwarded
        obtain ⟨handled, hhandled⟩ := handle_unforwarded elapsed call.clientKey
          hforwarded
        rw [ProxyRoute.leftPool, ProxyRoute.sends, hforwarded, Handlers.Env.alone, hhandled,
          forwarded_nil]
        rw [Call.handled, hhandled] at hstep
        exact reaches_end _ rfl hstep
    | some forwarded =>
        obtain ⟨mode, request⟩ := forwarded
        have hstep : advance crates { Outside.smooth with now, elapsed } m (.limiting call)
            = (m.setLimiter rateLimiter, {mode.first call remaining request}) :=
          limiting_of_forwarded hchecked hforwarded
        rw [handle_alone _ hforwarded, ProxyRoute.leftPool, ProxyRoute.sends, hforwarded]
        exact (reaches_next _ rfl hstep).trans (reaches_forwarded hforwarded)

/-- **A request that has the server to itself comes to what the functions say of it**: the
two layers, the handler, and the forwarder below it. -/
theorem exists_run_alone (crates : Crates) (downstream : Forwarder.Downstream)
    (now : Instant) (elapsed : Duration) (m : ServerMemory) (others : Multiset Task)
    (route : ProxyRoute) (headers : HeaderMap) (body : Json) :
    ∃ ops, (∀ op ∈ ops, ∃ call, op.isOf call ∧ call.request = .proxy route headers body) ∧
      Runs.run (step crates) ⟨m, others⟩ (.arrive (.proxy route headers body) :: ops)
        = some ⟨(alone crates downstream now elapsed m route headers body).1,
          (alone crates downstream now elapsed m route headers body).2 + others⟩ := by
  cases hauth : Auth.auth m.state.clientKeys headers with
  | error e =>
      rw [alone_of_unauthorized (RateLimit.enter_of_unauthorized _ _ hauth)]
      refine ⟨[], List.forall_mem_nil _,
        Runs.run_cons_eq_some.mpr ⟨_, step_arrive.mpr rfl, ?_⟩⟩
      rw [arriving_of_unauthorized hauth]
      rfl
  | ok clientKey =>
      obtain ⟨ops, hops, hrun⟩ := reaches_limiting crates downstream now elapsed m others
        { route, headers, body, clientKey, shown := Auth.extractKey_of_auth hauth } hauth
      refine ⟨ops, fun op hop => ⟨_, hops op hop, rfl⟩, Runs.run_cons_eq_some.mpr
        ⟨_, step_arrive.mpr rfl, ?_⟩⟩
      rw [arriving_of_auth hauth, Multiset.singleton_add]
      exact hrun

end Enter

end Server

end XiaomiProxy
