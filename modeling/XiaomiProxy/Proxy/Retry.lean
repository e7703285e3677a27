import XiaomiProxy.Proxy.PoolRuns

/-!
# The retry loop

`with_retry` of `proxy/retry.rs`.  A call is run against an environment that
says what each request is answered with, what the random generator draws and at
what time each report is made; nothing else touches the pool meanwhile.  The
model logs what the call does, in order: what it acquires, which requests it
issues, which reports it makes and how long it sleeps.

A call returns a `Result` unless it panics, which it does when building the
request panics, when `report_failure` panics and when `calculate_delay` is left
with an empty range.
-/

namespace XiaomiProxy

/-- What a request is answered with. -/
abbrev Outcome := Except ReqwestError Response

namespace Retry

/-- `is_retryable`. -/
def isRetryable (status : StatusCode) : Bool :=
  status.asU16 = 429 ∨ status.asU16 = 502 ∨ status.asU16 = 503 ∨ status.asU16 = 504

/-- A draw from an inclusive range: within the range, when it is not empty. -/
structure GenRange where
  sample : UInt64 → UInt64 → UInt64
  mem : ∀ lo hi, lo ≤ hi → lo ≤ sample lo hi ∧ sample lo hi ≤ hi

/-- The draw of the lower end. -/
def GenRange.lowest : GenRange where
  sample lo _ := lo
  mem _ _ h := ⟨UInt64.le_refl _, h⟩

/-- `2u64.pow(attempt)`, which wraps. -/
def pow2 (attempt : UInt32) : UInt64 :=
  if attempt < 64 then UInt64.ofNat (2 ^ attempt.toNat) else 0

/-- `calculate_delay`, in wrapping arithmetic.  `none` is the panic of
`gen_range` on an empty range. -/
def calculateDelay (rng : GenRange) (baseMs : UInt64) (attempt : UInt32) :
    Option UInt64 :=
  let exponential := baseMs * pow2 attempt
  let jitter := exponential / 4
  -- `saturating_sub` below, and a sum that may wrap above
  let lo := if jitter ≤ exponential then exponential - jitter else 0
  let hi := exponential + jitter
  if lo ≤ hi then some (rng.sample lo hi) else none

/-- The environment of one call.  `makeRequest n key` is what becomes of its
`n`-th request, issued with `key`: `none` when building it panics. -/
structure Env where
  makeRequest : ℕ → String → Option Outcome
  now : ℕ → Instant
  rng : ℕ → GenRange

/-- What a call does. -/
inductive Event where
  | acquired (acquired : AcquiredKey)
  | refused
  | requested (key : String)
  | succeeded (acquired : AcquiredKey)
  | failed (now : Instant) (acquired : AcquiredKey)
  | slept (ms : UInt64)
  deriving DecidableEq, Repr

/-- The pool a call leaves behind, what it did on the way, and what it returns;
`none` when it panics. -/
structure Run where
  pool : KeyPool
  events : List Event
  result : Option (Except AppError (Response × AcquiredKey))

/-- The run that does `es` before it goes on as `run`. -/
def Run.after (es : List Event) (run : Run) : Run :=
  { run with events := es ++ run.events }

/-- The arm of a successful attempt and of a status the handler is left to deal
with. -/
def returnArm (p : KeyPool) (acquired : AcquiredKey) (resp : Response) : Run where
  pool := p.reportSuccess acquired
  events := [.succeeded acquired]
  result := some (.ok (resp, acquired))

/-- The two arms of a failed attempt: report the failure, compute the delay, and
sleep unless this was the last attempt. -/
def failureArm (env : Env) (maxRetries : UInt32) (baseDelayMs : UInt64) (attempt : ℕ)
    (p : KeyPool) (acquired : AcquiredKey) (next : KeyPool → Run) : Run :=
  let now := env.now attempt
  match p.reportFailure now acquired with
  | (p, none) => { pool := p, events := [.failed now acquired], result := none }
  | (p, some ()) =>
      match calculateDelay (env.rng attempt) baseDelayMs (UInt32.ofNat attempt) with
      | none => { pool := p, events := [.failed now acquired], result := none }
      | some delay =>
          -- no sleep after the last attempt
          let slept := if attempt < maxRetries.toNat then [Event.slept delay] else []
          Run.after (.failed now acquired :: slept) (next p)

/-- What is kept of a failed attempt as the last error. -/
def lastError : Outcome → AppError
  | .ok resp => .downstream ("HTTP " ++ toString resp.status.asU16.toNat)
  | .error e => .downstream e.text

/-- The loop over the attempts, `remaining` of them from `attempt` on. -/
def loop (env : Env) (maxRetries : UInt32) (baseDelayMs : UInt64) :
    (remaining attempt : ℕ) → Option AppError → KeyPool → Run
  | 0, _, last, p =>
      { pool := p
        events := []
        result := some (.error (last.getD (.internal "exhausted retries"))) }
  | remaining + 1, attempt, _, p =>
      match p.acquireKey with
      | (p, .error e) => { pool := p, events := [.refused], result := some (.error e) }
      | (p, .ok acquired) =>
          let fail (outcome : Outcome) : Run :=
            failureArm env maxRetries baseDelayMs attempt p acquired fun p =>
              loop env maxRetries baseDelayMs remaining (attempt + 1)
                (some (lastError outcome)) p
          Run.after [.acquired acquired, .requested acquired.key]
            (match env.makeRequest attempt acquired.key with
              | none => { pool := p, events := [], result := none }
              | some (.ok resp) =>
                  -- the guards of the arms, in the order of the source
                  if resp.status.isSuccess then returnArm p acquired resp
                  else if isRetryable resp.status then fail (.ok resp)
                  else returnArm p acquired resp
              | some (.error e) => fail (.error e))

/-- `with_retry`: the attempts `0..=max_retries`. -/
def withRetry (env : Env) (maxRetries : UInt32) (baseDelayMs : UInt64) (p : KeyPool) :
    Run :=
  loop env maxRetries baseDelayMs (maxRetries.toNat + 1) 0 none p

/-! ## What the log says -/

/-- The keys of the requests issued, in order. -/
def Run.requests (run : Run) : List String :=
  run.events.filterMap fun
    | .requested key => some key
    | _ => none

/-- The reports made, in order: the key, and whether it was a success. -/
def Run.reports (run : Run) : List (String × Bool) :=
  run.events.filterMap fun
    | .succeeded acquired => some (acquired.key, true)
    | .failed _ acquired => some (acquired.key, false)
    | _ => none

/-- An outcome ends the call if it is neither a retryable status nor a transport
error. -/
def terminal : Outcome → Bool
  | .ok resp => !isRetryable resp.status
  | .error _ => false

theorem isRetryable_of_isSuccess {status : StatusCode} (h : status.isSuccess = true) :
    isRetryable status = false := by
  have hrange : 200 ≤ status.asU16 ∧ status.asU16 < 300 := by
    simpa [StatusCode.isSuccess] using h
  have hlt : status.asU16.toNat < 300 := UInt16.lt_iff_toNat_lt.mp hrange.2
  simp only [isRetryable, decide_eq_false_iff_not]
  rintro (h | h | h | h) <;> simp [h] at hlt

section Step

variable {env : Env} {maxRetries : UInt32} {baseDelayMs : UInt64} {n attempt : ℕ}
  {last : Option AppError} {p p' : KeyPool} {acquired : AcquiredKey}

theorem loop_of_refused {e : AppError} (h : p.acquireKey = (p', .error e)) :
    loop env maxRetries baseDelayMs (n + 1) attempt last p
      = { pool := p', events := [.refused], result := some (.error e) } := by
  simp only [loop, h]

/-- An attempt with a terminal outcome ends the call. -/
theorem loop_of_terminal {resp : Response} (h : p.acquireKey = (p', .ok acquired))
    (hrequest : env.makeRequest attempt acquired.key = some (.ok resp))
    (hterminal : terminal (.ok resp) = true) :
    loop env maxRetries baseDelayMs (n + 1) attempt last p
      = Run.after [.acquired acquired, .requested acquired.key]
          (returnArm p' acquired resp) := by
  have hretryable : isRetryable resp.status = false := by
    simpa [terminal] using hterminal
  simp only [loop, h, hrequest, hretryable]
  split <;> rfl

/-- An attempt with any other outcome goes through the failure arm. -/
theorem loop_of_failure {outcome : Outcome} (h : p.acquireKey = (p', .ok acquired))
    (hrequest : env.makeRequest attempt acquired.key = some outcome)
    (hfailure : terminal outcome = false) :
    loop env maxRetries baseDelayMs (n + 1) attempt last p
      = Run.after [.acquired acquired, .requested acquired.key]
          (failureArm env maxRetries baseDelayMs attempt p' acquired fun p =>
            loop env maxRetries baseDelayMs n (attempt + 1)
              (some (lastError outcome)) p) := by
  cases outcome with
  | ok resp =>
      have hretryable : isRetryable resp.status = true := by
        simpa [terminal] using hfailure
      have hsuccess : resp.status.isSuccess = false := by
        by_contra hne
        rw [isRetryable_of_isSuccess (by simpa using hne)] at hretryable
        cases hretryable
      simp only [loop, h, hrequest, hretryable, hsuccess]
      rfl
  | error e => simp only [loop, h, hrequest]

/-- **What a failed attempt does**: it reports its failure, and with that the call is over
without a result, or it goes on with the pool of the report, asleep in between or not. -/
theorem failureArm_cases (env : Env) (maxRetries : UInt32) (baseDelayMs : UInt64)
    (attempt : ℕ) (p : KeyPool) (acquired : AcquiredKey) (next : KeyPool → Run) :
    failureArm env maxRetries baseDelayMs attempt p acquired next
        = { pool := (p.reportFailure (env.now attempt) acquired).1
            events := [.failed (env.now attempt) acquired]
            result := none } ∨
      ∃ slept : List Event, (slept = [] ∨ ∃ ms, slept = [.slept ms]) ∧
        failureArm env maxRetries baseDelayMs attempt p acquired next
          = Run.after (.failed (env.now attempt) acquired :: slept)
              (next (p.reportFailure (env.now attempt) acquired).1) := by
  rw [failureArm]
  generalize p.reportFailure (env.now attempt) acquired = report
  rcases report with ⟨q, - | u⟩
  · exact Or.inl rfl
  · cases calculateDelay (env.rng attempt) baseDelayMs (UInt32.ofNat attempt) with
    | none => exact Or.inl rfl
    | some delay =>
        refine Or.inr ⟨if attempt < maxRetries.toNat then [.slept delay] else [], ?_, rfl⟩
        split
        · exact Or.inr ⟨delay, rfl⟩
        · exact Or.inl rfl

/-- A sleep is no request. -/
theorem requests_after_failed (now : Instant) (acquired : AcquiredKey) (run : Run)
    {slept : List Event} (hslept : slept = [] ∨ ∃ ms, slept = [.slept ms]) :
    (Run.after (.failed now acquired :: slept) run).requests = run.requests := by
  rcases hslept with rfl | ⟨ms, rfl⟩ <;> rfl

/-- A failed attempt leads to a response by way of those that follow. -/
theorem exists_of_failureArm_ok {next : KeyPool → Run} {answer : Response × AcquiredKey}
    (h : (failureArm env maxRetries baseDelayMs attempt p acquired next).result
      = some (.ok answer)) :
    ∃ p', (next p').result = some (.ok answer) ∧
      (failureArm env maxRetries baseDelayMs attempt p acquired next).requests
        = (next p').requests := by
  rcases failureArm_cases env maxRetries baseDelayMs attempt p acquired next with
    heq | ⟨slept, hslept, heq⟩
  · rw [heq] at h
    cases h
  · rw [heq] at h ⊢
    exact ⟨_, h, requests_after_failed _ _ _ hslept⟩

/-- **A call returns the response to its last request**, and all requests before it could
be built. -/
theorem loop_answer {resp : Response}
    (h : (loop env maxRetries baseDelayMs n attempt last p).result
      = some (.ok (resp, acquired))) :
    ∃ earlier, (loop env maxRetries baseDelayMs n attempt last p).requests
        = earlier ++ [acquired.key] ∧
      env.makeRequest (attempt + earlier.length) acquired.key = some (.ok resp) ∧
      ∀ key ∈ earlier, ∃ m, (env.makeRequest m key).isSome = true := by
  induction n generalizing attempt last p with
  | zero => cases h
  | succ n ih =>
      rcases hacquire : p.acquireKey with ⟨p', e | server⟩
      · rw [loop_of_refused hacquire] at h
        cases h
      · cases hrequest : env.makeRequest attempt server.key with
        | none =>
            simp only [loop, hacquire, hrequest, Run.after, reduceCtorEq] at h
        | some outcome =>
            cases hterminal : terminal outcome with
            | true =>
                cases outcome with
                | error e => cases hterminal
                | ok answer =>
                    rw [loop_of_terminal hacquire hrequest hterminal] at h ⊢
                    cases h
                    exact ⟨[], rfl, hrequest, nofun⟩
            | false =>
                rw [loop_of_failure hacquire hrequest hterminal] at h ⊢
                obtain ⟨q, hnext, hrequests⟩ := exists_of_failureArm_ok h
                obtain ⟨earlier, heq, hanswer, hbuilt⟩ := ih hnext
                refine ⟨server.key :: earlier, ?_, ?_, ?_⟩
                · show server.key :: (failureArm env maxRetries baseDelayMs attempt p' server
                    _).requests = _
                  rw [hrequests, heq]
                  rfl
                · rw [List.length_cons, Nat.add_comm earlier.length, ← Nat.add_assoc]
                  exact hanswer
                · intro key hkey
                  rcases List.mem_cons.mp hkey with rfl | hkey
                  · exact ⟨attempt, by rw [hrequest]; rfl⟩
                  · exact hbuilt key hkey

end Step

end Retry

end XiaomiProxy
