import XiaomiProxy.Proxy.Retry

/-!
# Forwarding

`forward_request` and `forward_streaming` of `proxy/forwarder.rs`.  Both acquire
a key, build the same request for it and report how it went; the first goes
through the retry loop, the second makes one attempt of its own.

* `buildDownstreamHeaders`, `downstreamRequest` — the request issued for a key.
* `forwardRequest`, `forwardStreaming` — the two forwarders.
* `JudgeAlike` — the two acquire the same key and leave the same pool.  Without
  retries, they do exactly on the outcomes that are `Agreed`.
-/

namespace XiaomiProxy

inductive Protocol where
  | openAI
  | anthropic
  deriving DecidableEq, Repr

namespace Protocol

/-- `Protocol::base_url`. -/
def baseUrl (config : Config) : Protocol → String
  | .openAI => config.downstream.openaiBaseUrl
  | .anthropic => config.downstream.anthropicBaseUrl

/-- `Protocol::as_str`. -/
def asStr : Protocol → String
  | .openAI => "openai"
  | .anthropic => "anthropic"

end Protocol

/-- The head of a response and the stream of its body, as handed to the client. -/
structure ClientResponse where
  status : StatusCode
  headers : HeaderMap
  body : Except ReqwestError Bytes

namespace Forwarder

/-- `build_downstream_headers`.  `none` is the panic of the `unwrap` on the
authorization value. -/
def buildDownstreamHeaders (original : HeaderMap) (downstreamKey : String)
    (protocol : Protocol) : Option HeaderMap :=
  let headers := original.remove AUTHORIZATION
  let headers := headers.remove "x-api-key"
  let headers := headers.remove HOST
  let headers := headers.remove CONTENT_LENGTH
  match HeaderValue.ofStr ("Bearer " ++ downstreamKey) with
  | none => none
  | some authValue =>
      let headers := headers.insert AUTHORIZATION authValue
      match protocol with
      | .openAI => some headers
      | .anthropic =>
          -- here the source has `if let Ok`, and goes on without the header
          match HeaderValue.ofStr downstreamKey with
          | some val => some (headers.insert "x-api-key" val)
          | none => some headers

/-- A client request on its way to a provider. -/
structure ClientRequest where
  protocol : Protocol
  path : String
  headers : HeaderMap
  body : Bytes

/-- The request both forwarders issue with a key. -/
def downstreamRequest (config : Config) (request : ClientRequest)
    (downstreamKey : String) : Option DownstreamRequest :=
  let url := request.protocol.baseUrl config ++ request.path
  match buildDownstreamHeaders request.headers downstreamKey request.protocol with
  | none => none
  | some headers => some { method := "POST", url, headers, body := request.body }

/-- The other side of a call: what its `n`-th request is answered with, the times
of its reports and the draws of its random generator. -/
structure Downstream where
  send : ℕ → DownstreamRequest → Outcome
  now : ℕ → Instant
  rng : ℕ → Retry.GenRange

/-- The pool a forwarder leaves behind, what it did on the way, and what it
returns; `none` when it panics. -/
structure Forwarded (α : Type) where
  pool : KeyPool
  events : List Retry.Event
  result : Option (Except AppError α)

/-- The keys a call acquired, in order. -/
def Forwarded.acquired {α : Type} (call : Forwarded α) : List AcquiredKey :=
  call.events.filterMap fun
    | .acquired acquired => some acquired
    | _ => none

/-- The environment `forward_request` gives to `with_retry`. -/
def retryEnv (downstream : Downstream) (config : Config) (request : ClientRequest) :
    Retry.Env where
  makeRequest attempt downstreamKey :=
    (downstreamRequest config request downstreamKey).map (downstream.send attempt)
  now := downstream.now
  rng := downstream.rng

/-- `forward_request`. -/
def forwardRequest (downstream : Downstream) (config : Config) (keyPool : KeyPool)
    (request : ClientRequest) : Forwarded (Bytes × StatusCode × HeaderMap) :=
  let run := Retry.withRetry (retryEnv downstream config request)
    config.downstream.maxRetries config.downstream.retryBaseMs keyPool
  { pool := run.pool
    events := run.events
    result := run.result.map fun
      | .error e => .error e
      | .ok (resp, _) =>
          match resp.bytes with
          | .error e => .error (AppError.ofReqwest e)
          | .ok respBody => .ok (respBody, resp.status, resp.headers) }

/-- `forward_streaming`. -/
def forwardStreaming (downstream : Downstream) (config : Config) (keyPool : KeyPool)
    (request : ClientRequest) : Forwarded ClientResponse :=
  match keyPool.acquireKey with
  | (pool, .error e) => { pool, events := [.refused], result := some (.error e) }
  | (pool, .ok acquired) =>
      let start := [Retry.Event.acquired acquired, .requested acquired.key]
      match downstreamRequest config request acquired.key with
      | none => { pool, events := start, result := none }
      | some req =>
          match downstream.send 0 req with
          -- the `?` on `send` leaves before any report
          | .error e =>
              { pool, events := start, result := some (.error (AppError.ofReqwest e)) }
          | .ok resp =>
              if !resp.status.isSuccess then
                let failed := pool.reportFailure (downstream.now 0) acquired
                let errBody := match resp.text with
                  | .ok text => text
                  | .error _ => ""
                { pool := failed.1
                  events := start ++ [.failed (downstream.now 0) acquired]
                  result := failed.2.map fun _ => .error (.downstream
                    ("HTTP " ++ toString resp.status.asU16.toNat ++ ": " ++ errBody)) }
              else
                { pool := pool.reportSuccess acquired
                  events := start ++ [.succeeded acquired]
                  result := some (.ok
                    { status := resp.status
                      headers := resp.headers
                      body := resp.bytes }) }

/-- The two forwarders acquire the same key and leave the same pool. -/
def JudgeAlike (downstream : Downstream) (config : Config) (keyPool : KeyPool)
    (request : ClientRequest) : Prop :=
  (forwardStreaming downstream config keyPool request).acquired
      = (forwardRequest downstream config keyPool request).acquired ∧
    (forwardStreaming downstream config keyPool request).pool
      = (forwardRequest downstream config keyPool request).pool

instance (downstream : Downstream) (config : Config) (keyPool : KeyPool)
    (request : ClientRequest) : Decidable (JudgeAlike downstream config keyPool request) :=
  inferInstanceAs (Decidable (_ ∧ _))

/-- The outcomes the forwarders agree on, for an entry with this error counter:
a success, a retryable status, and any other status when counting one more error
takes the counter to zero. -/
def Agreed (consecutiveErrors : UInt32) : Outcome → Prop
  | .ok resp => resp.status.isSuccess = true ∨ Retry.isRetryable resp.status = true ∨
      consecutiveErrors = 4294967295
  | .error _ => False

/-! ## The verdicts -/

/-- The report `forward_streaming` makes of an outcome: a success, a failure or
none at all. -/
def streamingVerdict : Outcome → Option Bool
  | .ok resp => some resp.status.isSuccess
  | .error _ => none

/-- The report `with_retry` makes of an outcome. -/
def retryVerdict (outcome : Outcome) : Option Bool := some (Retry.terminal outcome)

/-- What a report leaves of the pool. -/
def judged (now : Instant) (p : KeyPool) (acquired : AcquiredKey) :
    Option Bool → KeyPool
  | some true => p.reportSuccess acquired
  | some false => (p.reportFailure now acquired).1
  | none => p

/-- A call that acquired `acquired`, leaving `p`, and made the report `verdict`. -/
structure Judged {α : Type} (now : Instant) (p : KeyPool) (acquired : AcquiredKey)
    (verdict : Option Bool) (call : Forwarded α) : Prop where
  pool : call.pool = judged now p acquired verdict
  acquired : call.acquired = [acquired]

section Verdict

variable {downstream : Downstream} {config : Config} {p p' : KeyPool}
  {request : ClientRequest} {acquired : AcquiredKey} {e : AppError}

/-- Without a further attempt, a failed one leaves the pool of its report and
acquires nothing. -/
theorem failureArm_last {env : Retry.Env} {maxRetries : UInt32} {baseDelayMs : UInt64}
    {attempt : ℕ} {next : KeyPool → Retry.Run}
    (hnext : ∀ p, (next p).pool = p ∧ (next p).events = []) :
    let run := Retry.failureArm env maxRetries baseDelayMs attempt p acquired next
    run.pool = (p.reportFailure (env.now attempt) acquired).1 ∧
      ∀ a, .acquired a ∉ run.events := by
  intro run
  have hcases := Retry.failureArm_cases env maxRetries baseDelayMs attempt p acquired next
  rcases hcases with heq | ⟨slept, hslept, heq⟩
  · have hrun : run = _ := heq
    rw [hrun]
    simp
  · have hrun : run = _ := heq
    rw [hrun]
    simp only [Retry.Run.after, hnext, List.append_nil, true_and]
    intro a
    rcases hslept with rfl | ⟨ms, rfl⟩ <;> simp

/-- A last attempt that fails leaves the pool of its report and makes no further
acquisition. -/
theorem loop_of_last_failure {env : Retry.Env} {attempt : ℕ} {outcome : Outcome}
    (maxRetries : UInt32) (baseDelayMs : UInt64) (last : Option AppError)
    (h : p.acquireKey = (p', .ok acquired))
    (hrequest : env.makeRequest attempt acquired.key = some outcome)
    (hfailure : Retry.terminal outcome = false) :
    let run := Retry.loop env maxRetries baseDelayMs 1 attempt last p
    run.pool = (p'.reportFailure (env.now attempt) acquired).1 ∧
      ∃ es, run.events = .acquired acquired :: es ∧ ∀ a, .acquired a ∉ es := by
  intro run
  have hrun : run = _ := Retry.loop_of_failure h hrequest hfailure
  rw [hrun]
  refine ⟨(failureArm_last fun p => ⟨rfl, rfl⟩).1,
    .requested acquired.key :: _, rfl, fun a => ?_⟩
  rw [List.mem_cons, not_or]
  exact ⟨nofun, (failureArm_last fun p => ⟨rfl, rfl⟩).2 a⟩

/-- A streaming call that gets a key and a request is judged by its own rule. -/
theorem forwardStreaming_judged (downstream : Downstream) {req : DownstreamRequest}
    (h : p.acquireKey = (p', .ok acquired))
    (hreq : downstreamRequest config request acquired.key = some req) :
    Judged (downstream.now 0) p' acquired (streamingVerdict (downstream.send 0 req))
      (forwardStreaming downstream config p request) := by
  cases houtcome : downstream.send 0 req with
  | error e => constructor <;> simp [forwardStreaming, h, hreq, houtcome,
      streamingVerdict, judged, Forwarded.acquired]
  | ok resp =>
      cases hsuccess : resp.status.isSuccess <;> constructor <;>
        simp [forwardStreaming, h, hreq, houtcome, hsuccess, streamingVerdict, judged,
          Forwarded.acquired]

/-- A call with one attempt that gets a key and a request is judged by the rule of
the retry loop. -/
theorem forwardRequest_judged (downstream : Downstream)
    (hretries : config.downstream.maxRetries = 0)
    {req : DownstreamRequest} (h : p.acquireKey = (p', .ok acquired))
    (hreq : downstreamRequest config request acquired.key = some req) :
    Judged (downstream.now 0) p' acquired (retryVerdict (downstream.send 0 req))
      (forwardRequest downstream config p request) := by
  have hrequest : (retryEnv downstream config request).makeRequest 0 acquired.key
      = some (downstream.send 0 req) := by
    simp [retryEnv, hreq]
  have hattempts : config.downstream.maxRetries.toNat + 1 = 1 := by
    rw [hretries]
    rfl
  cases hterminal : Retry.terminal (downstream.send 0 req) with
  | true =>
      cases houtcome : downstream.send 0 req with
      | error e => simp [houtcome, Retry.terminal] at hterminal
      | ok resp =>
          rw [houtcome] at hrequest hterminal
          constructor <;>
            simp [forwardRequest, Retry.withRetry, hattempts, hterminal, retryVerdict,
              Retry.loop_of_terminal h hrequest hterminal, Retry.Run.after,
              Retry.returnArm, judged, Forwarded.acquired]
  | false =>
      obtain ⟨hpool, es, hevents, hes⟩ := loop_of_last_failure
        config.downstream.maxRetries config.downstream.retryBaseMs none h hrequest
        hterminal
      constructor
      · rw [retryVerdict, hterminal, judged, forwardRequest, Retry.withRetry, hattempts]
        exact hpool
      · rw [forwardRequest, Retry.withRetry, hattempts, Forwarded.acquired, hevents]
        rw [List.filterMap_cons]
        simp only [List.cons.injEq, true_and, List.filterMap_eq_nil_iff]
        intro event hevent
        cases event with
        | acquired a => exact absurd hevent (hes a)
        | _ => rfl

/-- A call whose request cannot be built makes no report, in either mode. -/
theorem judgeAlike_of_panic (h : p.acquireKey = (p', .ok acquired))
    (hreq : downstreamRequest config request acquired.key = none) :
    JudgeAlike downstream config p request := by
  have hrequest : (retryEnv downstream config request).makeRequest 0 acquired.key
      = none := by
    simp [retryEnv, hreq]
  simp [JudgeAlike, forwardStreaming, forwardRequest, Retry.withRetry, Retry.loop, h,
    hreq, hrequest, Retry.Run.after, Forwarded.acquired]

/-- A call that gets no key leaves the pool as it is, in either mode. -/
theorem judgeAlike_of_refused (h : p.acquireKey = (p', .error e)) :
    JudgeAlike downstream config p request := by
  simp [JudgeAlike, forwardStreaming, forwardRequest, Retry.withRetry,
    Retry.loop_of_refused h, h, Forwarded.acquired]

end Verdict

/-! ## Comparing the reports -/

section Report

variable {now : Instant} {p : KeyPool} {acquired : AcquiredKey} {k : Cell PooledKey}

/-- A failure report adds one to the error counter of the entry it is about,
whatever else it does. -/
theorem reportFailure_keys (now : Instant) (h : p.entryOf? acquired.key = some k) :
    ∃ f : PooledKey → PooledKey,
      (p.reportFailure now acquired).1.keys = p.keys.modify k.ptr f ∧
        (f k.val).consecutiveErrors = k.val.consecutiveErrors + 1 := by
  by_cases hle : 3 ≤ k.val.consecutiveErrors + 1
  · rw [KeyPool.reportFailure_of_le h hle]
    exact ⟨_, rfl, rfl⟩
  · rw [KeyPool.reportFailure_of_lt h hle]
    exact ⟨_, rfl, rfl⟩

/-- A failure report is felt. -/
theorem ne_reportFailure (now : Instant) (h : p.entryOf? acquired.key = some k) :
    p ≠ (p.reportFailure now acquired).1 := by
  intro heq
  obtain ⟨f, hkeys, herrors⟩ := reportFailure_keys now h
  have hmodify : p.keys.modify k.ptr id = p.keys.modify k.ptr f := by
    rw [← hkeys, ← heq, SharedVec.modify_id]
  rw [← (p.keys.modify_eq_modify_iff (KeyPool.entryOf?_mem h) id f).mp hmodify] at herrors
  simp at herrors

/-- A failure report does what a success report does exactly when it takes the
error counter around to zero. -/
theorem reportFailure_eq_reportSuccess_iff (now : Instant)
    (h : p.entryOf? acquired.key = some k) :
    (p.reportFailure now acquired).1 = p.reportSuccess acquired ↔
      k.val.consecutiveErrors = 4294967295 := by
  have hmem := KeyPool.entryOf?_mem h
  rw [KeyPool.reportSuccess_of_some h]
  constructor
  · intro heq
    obtain ⟨f, hkeys, herrors⟩ := reportFailure_keys now h
    rw [heq] at hkeys
    rw [← (p.keys.modify_eq_modify_iff hmem _ f).mp hkeys] at herrors
    have hzero : (0 : UInt32) = k.val.consecutiveErrors + 1 := herrors
    rw [← UInt32.sub_eq_iff_eq_add] at hzero
    exact hzero.symm
  · intro hmax
    have hlt : ¬ 3 ≤ k.val.consecutiveErrors + 1 := by
      rw [hmax]
      decide
    have hstore : k.val.countError = k.val.clearErrors := by
      rw [PooledKey.countError, PooledKey.clearErrors, hmax]
      rfl
    rw [KeyPool.reportFailure_of_lt h hlt,
      (p.keys.modify_eq_modify_iff hmem _ _).mpr hstore]

/-- The two rules of judgement make the same of the pool exactly on the agreed
outcomes. -/
theorem judged_eq_iff (acquired : AcquiredKey) (now : Instant) (outcome : Outcome)
    (h : p.entryOf? acquired.key = some k) :
    judged now p acquired (streamingVerdict outcome)
        = judged now p acquired (retryVerdict outcome) ↔
      Agreed k.val.consecutiveErrors outcome := by
  cases outcome with
  | error e =>
      simp only [streamingVerdict, retryVerdict, Retry.terminal, judged, Agreed, iff_false]
      exact ne_reportFailure now h
  | ok resp =>
      cases hsuccess : resp.status.isSuccess with
      | true =>
          have hretryable := Retry.isRetryable_of_isSuccess hsuccess
          simp [streamingVerdict, retryVerdict, Retry.terminal, Agreed, hsuccess,
            hretryable]
      | false =>
          cases hretryable : Retry.isRetryable resp.status with
          | true =>
              simp [streamingVerdict, retryVerdict, Retry.terminal, Agreed, hsuccess,
                hretryable]
          | false =>
              simp only [streamingVerdict, retryVerdict, Retry.terminal, judged, Agreed,
                hsuccess, hretryable, Bool.not_false, Bool.false_eq_true, false_or]
              exact reportFailure_eq_reportSuccess_iff now h

end Report

/-- Counting a request leaves the error counters as they were. -/
theorem entryOf?_countRequest {p : KeyPool} {key : String} {e : Cell PooledKey} (ptr : ℕ)
    (h : p.entryOf? key = some e) (state : PoolState) (tasks : List RecoveryTask) :
    ∃ e', KeyPool.entryOf? { keys := p.keys.modify ptr PooledKey.countRequest, state, tasks }
        key = some e' ∧ e'.val.consecutiveErrors = e.val.consecutiveErrors := by
  refine ⟨e.update ptr PooledKey.countRequest, ?_, ?_⟩
  · rw [KeyPool.entryOf?_modify (f := PooledKey.countRequest) ptr (fun _ => rfl), h]
    rfl
  · exact Cell.update_attr (f := PooledKey.countRequest) (g := PooledKey.consecutiveErrors)
      (fun _ => rfl) ptr e

/-- **The forwarders judge a key alike exactly on the agreed outcomes.**  When no
key can be acquired or the request cannot be built there is nothing to judge. -/
theorem judgeAlike_iff (downstream : Downstream) (config : Config) (p : KeyPool)
    (request : ClientRequest) (hretries : config.downstream.maxRetries = 0) :
    JudgeAlike downstream config p request ↔
      ∀ k e req, p.selectKey = .ok k → p.entryOf? k.val.key = some e →
        downstreamRequest config request k.val.key = some req →
          Agreed e.val.consecutiveErrors (downstream.send 0 req) := by
  rcases p.acquireKey_cases with ⟨e, hselect, h⟩ | ⟨k, index, hselect, hmem, -, h⟩
  · -- no key: both calls end before they have anything to judge
    refine ⟨fun _ k e req hk => ?_, fun _ => judgeAlike_of_refused h⟩
    rw [hselect] at hk
    cases hk
  · cases hreq : downstreamRequest config request k.val.key with
    | none =>
        refine ⟨fun _ l e req hl _ hr => ?_, fun _ => judgeAlike_of_panic h hreq⟩
        obtain rfl : k = l := Except.ok.inj (hselect.symm.trans hl)
        rw [hreq] at hr
        cases hr
    | some req =>
        have hstreaming := forwardStreaming_judged downstream h hreq
        have hretry := forwardRequest_judged downstream hretries h hreq
        cases hentry : p.entryOf? k.val.key with
        | none => exact absurd rfl (KeyPool.entryOf?_eq_none.mp hentry k hmem)
        | some e =>
            -- the reports see the entry after its request was counted
            obtain ⟨e', hcounted, herrors⟩ := entryOf?_countRequest k.ptr hentry
              { roundRobinIndex := index } p.tasks
            have hagreed := judged_eq_iff { key := k.val.key }
              (downstream.now 0) (downstream.send 0 req) hcounted
            rw [herrors] at hagreed
            rw [JudgeAlike, hstreaming.acquired, hretry.acquired, hstreaming.pool,
              hretry.pool, hagreed]
            constructor
            · rintro ⟨-, hagree⟩ l e' req' hl he' hr'
              obtain rfl : k = l := Except.ok.inj (hselect.symm.trans hl)
              obtain rfl : e = e' := Option.some.inj (hentry.symm.trans he')
              obtain rfl : req = req' := Option.some.inj (hreq.symm.trans hr')
              exact hagree
            · intro hall
              exact ⟨rfl, hall k e req hselect hentry hreq⟩

/-! ## Single calls -/

/-- A provider that gives every request the same answer, at time zero. -/
def answering (outcome : Outcome) : Downstream where
  send _ _ := outcome
  now _ := 0
  rng _ := .lowest

/-- The configuration without a file, and without retries. -/
def withoutRetries : Config :=
  { Config.withoutFile with
    downstream := { Config.withoutFile.downstream with maxRetries := 0 } }

/-- A request of a client of the OpenAI routes. -/
def completion : ClientRequest where
  protocol := .openAI
  path := "/chat/completions"
  headers := []
  body := []

/-- A service that is unavailable counts against the key in both modes. -/
theorem judgeAlike_unavailable :
    JudgeAlike (answering (.ok (Response.ofStatus ⟨503, by decide⟩))) withoutRetries
      (KeyPool.new [⟨"tp-1", 1⟩]) completion :=
  (judgeAlike_iff _ withoutRetries _ completion rfl).mpr fun _ _ _ _ _ _ =>
    Or.inr (Or.inl (by decide))

/-- A bad request counts against the key when it is streamed, and a transport error
when it is not. -/
theorem not_judgeAlike :
    ¬ JudgeAlike (answering (.ok (Response.ofStatus ⟨400, by decide⟩))) withoutRetries
        (KeyPool.new [⟨"tp-1", 1⟩]) completion ∧
      ¬ JudgeAlike (answering (.error ⟨"connection refused"⟩)) withoutRetries
        (KeyPool.new [⟨"tp-1", 1⟩]) completion := by
  decide

end Forwarder

end XiaomiProxy
