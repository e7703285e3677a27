import XiaomiProxy.Proxy.Retry

/-!
# The retry loop is accounted for

A call of `with_retry` issues at most `max_retries + 1` requests and stops at the
first outcome that is neither a retryable status nor a transport error.  It makes
one report for each request, on the key of the request, and what it returns is
read off the last outcome.  The pool it leaves behind is what its acquisitions and
reports make of the pool it was given, one after the other (`perform`).  `Accounted`
says all of this of a run.

It is true of every call that gets past the log lines of its failure reports: a
report that trips a key which `mask_key` cannot slice panics, and then the call
returns nothing at all.  `withRetry_accounted_iff` says that this is the only
exception; it does not arise when all keys of the pool have masks
(`alongFailures_of_masks`).  The proof follows the loop: a failed attempt puts its
events in front of the rest of the run (`Tracked.step`, `Ending.step`), and the
induction is on the attempts that remain.
-/

namespace XiaomiProxy.Retry

/-- What an event makes of the pool; `none` if it cannot happen to that pool. -/
def perform (p : KeyPool) : Event → Option KeyPool
  | .acquired acquired =>
      if p.acquireKey.2 = .ok acquired then some p.acquireKey.1 else none
  | .refused =>
      if p.acquireKey.2 = .error .noKeysAvailable then some p.acquireKey.1 else none
  | .succeeded acquired => some (p.reportSuccess acquired)
  | .failed now acquired => some (p.reportFailure now acquired).1
  | .requested _ | .slept _ => some p

/-- The keys acquired, in order. -/
def Run.acquisitions (run : Run) : List String :=
  run.events.filterMap fun
    | .acquired acquired => some acquired.key
    | _ => none

/-- A call on the pool `p` whose result, requests and reports are as the outcomes of its
requests say. -/
structure Accounted (outcomes : ℕ → Outcome) (maxRetries : UInt32) (p : KeyPool)
    (run : Run) : Prop where
  /-- What happens happens to the pool. -/
  pool : Runs.run perform p run.events = some run.pool
  /-- Each request is issued with the key that was acquired for it. -/
  acquisitions : run.acquisitions = run.requests
  /-- The call returns a response, a downstream error or the lack of keys. -/
  returns : (∃ resp acquired, run.result = some (.ok (resp, acquired))) ∨
    (∃ message, run.result = some (.error (.downstream message))) ∨
    run.result = some (.error .noKeysAvailable)
  /-- At most `max_retries + 1` requests. -/
  requests_le : run.requests.length ≤ maxRetries.toNat + 1
  /-- Only the last request can have a terminal outcome. -/
  stops : ∀ i, i + 1 < run.requests.length → terminal (outcomes i) = false
  /-- One report for each request, on its key: a success if and only if the
  outcome was terminal. -/
  reports : run.reports
    = run.requests.mapIdx fun i key => (key, terminal (outcomes i))
  /-- The last response and its key, if and only if the last outcome was
  terminal. -/
  ok_iff : ∀ resp acquired, run.result = some (.ok (resp, acquired)) ↔
    ∃ m, run.requests.length = m + 1 ∧ outcomes m = .ok resp ∧
      terminal (outcomes m) = true ∧ run.requests[m]? = some acquired.key
  /-- The last outcome as an error, if and only if all requests were issued and
  none had a terminal outcome. -/
  downstream_iff : ∀ message,
    run.result = some (.error (.downstream message)) ↔
      run.requests.length = maxRetries.toNat + 1 ∧
        (∀ i < run.requests.length, terminal (outcomes i) = false) ∧
        ((∃ resp, outcomes maxRetries.toNat = .ok resp ∧
            message = "HTTP " ++ toString resp.status.asU16.toNat) ∨
          ∃ e, outcomes maxRetries.toNat = .error e ∧ message = e.text)
  /-- No keys, if and only if an acquisition failed. -/
  noKeys_iff : run.result = some (.error .noKeysAvailable) ↔
    Event.refused ∈ run.events
  /-- Never an internal error. -/
  not_internal : ∀ message, run.result ≠ some (.error (.internal message))

/-- `P` holds of every failed attempt of a call: of its number, the pool its
failure is reported to and the key it used.  A report that panics is the last
one. -/
def AlongFailures (env : Env) (outcomes : ℕ → Outcome)
    (P : ℕ → KeyPool → AcquiredKey → Prop) : (remaining attempt : ℕ) → KeyPool → Prop
  | 0, _, _ => True
  | remaining + 1, attempt, p =>
      match p.acquireKey with
      | (_, .error _) => True
      | (p, .ok acquired) =>
          terminal (outcomes attempt) = true ∨
            P attempt p acquired ∧
              ((p.reportFailure (env.now attempt) acquired).2 = some () →
                AlongFailures env outcomes P remaining (attempt + 1)
                  (p.reportFailure (env.now attempt) acquired).1)

/-- `calculate_delay` returns after the report of a failed attempt. -/
def DelayReturns (env : Env) (baseDelayMs : UInt64) (attempt : ℕ) (p : KeyPool)
    (acquired : AcquiredKey) : Prop :=
  (p.reportFailure (env.now attempt) acquired).2 = some () →
    (calculateDelay (env.rng attempt) baseDelayMs (UInt32.ofNat attempt)).isSome

/-- If the failure is the one that trips the entry of the key, `mask_key` has a
mask for it. -/
def MaskReturns (_ : ℕ) (p : KeyPool) (acquired : AcquiredKey) : Prop :=
  ∀ k ∈ p.entryOf? acquired.key, 3 ≤ k.val.consecutiveErrors + 1 →
    (Config.maskKey k.val.key).isSome

/-! ## One failed attempt -/

/-- A failure report returns if and only if it needs no mask or has one. -/
theorem reportFailure_returns_iff (now : Instant) (attempt : ℕ) (p : KeyPool)
    (acquired : AcquiredKey) :
    (p.reportFailure now acquired).2 = some () ↔ MaskReturns attempt p acquired := by
  unfold MaskReturns
  cases hentry : p.entryOf? acquired.key with
  | none => simp [KeyPool.reportFailure_of_none hentry]
  | some k =>
      by_cases hle : 3 ≤ k.val.consecutiveErrors + 1
      · rw [KeyPool.reportFailure_of_le hentry hle]
        cases hmask : Config.maskKey k.val.key with
        | none => simp [hle, hmask]
        | some masked => simp [hmask]
      · rw [KeyPool.reportFailure_of_lt hentry hle]
        simp [hle]

/-- In a pool all of whose keys have masks, no failure report of a call needs one that
is missing: a call changes no key. -/
theorem alongFailures_of_masks {env : Env} {outcomes : ℕ → Outcome} {p : KeyPool}
    (hmasks : ∀ key ∈ p.keyNames, (Config.maskKey key).isSome) (n attempt : ℕ) :
    AlongFailures env outcomes MaskReturns n attempt p := by
  induction n generalizing attempt p with
  | zero => trivial
  | succ n ih =>
      have hkeys := p.keyNames_acquireKey
      rw [AlongFailures]
      rcases hacquire : p.acquireKey with ⟨p', e | acquired⟩
      · trivial
      · rw [hacquire] at hkeys
        refine Or.inr ⟨?_, ?_⟩
        · intro k hk _
          refine hmasks k.val.key ?_
          rw [← hkeys]
          exact List.mem_map_of_mem (KeyPool.entryOf?_mem hk)
        · intro _
          refine ih ?_ (attempt + 1)
          rw [KeyPool.keyNames_reportFailure, hkeys]
          exact hmasks

section Failure

variable {env : Env} {outcomes : ℕ → Outcome} {maxRetries : UInt32}
  {baseDelayMs : UInt64} {n attempt : ℕ} {last : Option AppError} {p p' : KeyPool}
  {acquired : AcquiredKey}

/-- What a failed attempt that returns from its report and its delay logs. -/
def failedAttempt (now : Instant) (acquired : AcquiredKey) (slept : List Event) :
    List Event :=
  .acquired acquired :: .requested acquired.key :: .failed now acquired :: slept

/-- A failed attempt that returns from its report and its delay puts its events in
front of the rest of the run. -/
theorem loop_of_failure_returns (maxRetries : UInt32) (n : ℕ) (last : Option AppError)
    (h : p.acquireKey = (p', .ok acquired))
    (hrequest : env.makeRequest attempt acquired.key = some (outcomes attempt))
    (hfailure : terminal (outcomes attempt) = false)
    (hreturns : (p'.reportFailure (env.now attempt) acquired).2 = some ())
    (hdelay : DelayReturns env baseDelayMs attempt p' acquired) :
    ∃ slept : List Event, (slept = [] ∨ ∃ ms, slept = [.slept ms]) ∧
      loop env maxRetries baseDelayMs (n + 1) attempt last p
        = Run.after (failedAttempt (env.now attempt) acquired slept)
            (loop env maxRetries baseDelayMs n (attempt + 1)
              (some (lastError (outcomes attempt)))
              (p'.reportFailure (env.now attempt) acquired).1) := by
  obtain ⟨delay, hdelay⟩ := Option.isSome_iff_exists.mp (hdelay hreturns)
  rw [loop_of_failure h hrequest hfailure, failureArm]
  generalize hreport : p'.reportFailure (env.now attempt) acquired = report at hreturns ⊢
  obtain ⟨q, returned⟩ := report
  cases hreturns
  refine ⟨if attempt < maxRetries.toNat then [.slept delay] else [], ?_, ?_⟩
  · split
    · exact Or.inr ⟨delay, rfl⟩
    · exact Or.inl rfl
  · simp only [hdelay, Run.after]
    simp [failedAttempt]

/-- A failed attempt whose report panics ends the call without a result. -/
theorem loop_of_failure_panics (h : p.acquireKey = (p', .ok acquired))
    (hrequest : env.makeRequest attempt acquired.key = some (outcomes attempt))
    (hfailure : terminal (outcomes attempt) = false)
    (hpanics : (p'.reportFailure (env.now attempt) acquired).2 = none) :
    (loop env maxRetries baseDelayMs (n + 1) attempt last p).result = none := by
  rw [loop_of_failure h hrequest hfailure, failureArm]
  generalize hreport : p'.reportFailure (env.now attempt) acquired = report at hpanics ⊢
  obtain ⟨q, returned⟩ := report
  cases hpanics
  rfl

/-- Only a lack of keys makes an acquisition fail. -/
theorem acquireKey_error {e : AppError} (h : p.acquireKey = (p', .error e)) :
    p' = p ∧ e = .noKeysAvailable := by
  rcases p.acquireKey_cases with ⟨e', hselect, heq⟩ | ⟨k, index, -, -, -, heq⟩
  · rw [heq] at h
    have he : e' = e := Except.error.inj (congrArg Prod.snd h)
    refine ⟨(congrArg Prod.fst h).symm, ?_⟩
    rw [← he]
    exact KeyPool.selectKey_error hselect
  · rw [heq] at h
    cases congrArg Prod.snd h

end Failure

/-! ## The shape of a run -/

/-- The requests and reports of a run that has `n` attempts from `attempt` on. -/
structure Tracked (outcomes : ℕ → Outcome) (attempt n : ℕ) (run : Run) : Prop where
  requests_le : run.requests.length ≤ n
  stops : ∀ i, i + 1 < run.requests.length → terminal (outcomes (attempt + i)) = false
  reports : run.reports
    = run.requests.mapIdx fun i key => (key, terminal (outcomes (attempt + i)))

/-- What a run that is left with `n` attempts makes of its last error. -/
def finalError (outcomes : ℕ → Outcome) : ℕ → ℕ → Option AppError → AppError
  | 0, _, last => last.getD (.internal "exhausted retries")
  | n + 1, attempt, _ => finalError outcomes n (attempt + 1)
      (some (lastError (outcomes attempt)))

/-- How a run that has `n` attempts from `attempt` on can end. -/
inductive Ending (outcomes : ℕ → Outcome) (attempt n : ℕ) (last : Option AppError)
    (run : Run) : Prop where
  | answered (m : ℕ) (resp : Response) (acquired : AcquiredKey)
      (hlen : run.requests.length = m + 1)
      (houtcome : outcomes (attempt + m) = .ok resp)
      (hterminal : terminal (outcomes (attempt + m)) = true)
      (hkey : run.requests[m]? = some acquired.key)
      (hresult : run.result = some (.ok (resp, acquired)))
      (hrefused : Event.refused ∉ run.events)
  | exhausted (hlen : run.requests.length = n)
      (hall : ∀ i < n, terminal (outcomes (attempt + i)) = false)
      (hresult : run.result = some (.error (finalError outcomes n attempt last)))
      (hrefused : Event.refused ∉ run.events)
  | refused (hlen : run.requests.length < n)
      (hall : ∀ i < run.requests.length, terminal (outcomes (attempt + i)) = false)
      (hresult : run.result = some (.error .noKeysAvailable))
      (hrefused : Event.refused ∈ run.events)

section Shape

variable {outcomes : ℕ → Outcome} {attempt n : ℕ} {last : Option AppError} {run : Run}
  {key : String} {es : List Event}

/-- A failed attempt puts its request and its failure report in front, and no
refusal. -/
theorem after_failed_attempt (acquired : AcquiredKey) (now : Instant)
    {slept : List Event} (hslept : slept = [] ∨ ∃ ms, slept = [.slept ms]) (run : Run) :
    (Run.after (failedAttempt now acquired slept) run).requests
        = acquired.key :: run.requests ∧
      (Run.after (failedAttempt now acquired slept) run).reports
        = (acquired.key, false) :: run.reports ∧
      Event.refused ∉ failedAttempt now acquired slept := by
  rcases hslept with rfl | ⟨ms, rfl⟩ <;>
    simp [failedAttempt, Run.after, Run.requests, Run.reports]

/-- A failed attempt in front of a tracked run. -/
theorem Tracked.step (h : Tracked outcomes (attempt + 1) n run)
    (hfailure : terminal (outcomes attempt) = false)
    (hrequests : (Run.after es run).requests = key :: run.requests)
    (hreports : (Run.after es run).reports = (key, false) :: run.reports) :
    Tracked outcomes attempt (n + 1) (Run.after es run) := by
  refine ⟨?_, fun i hi => ?_, ?_⟩
  · rw [hrequests]
    exact Nat.succ_le_succ h.requests_le
  · cases i with
    | zero => exact hfailure
    | succ i =>
        rw [hrequests, List.length_cons] at hi
        rw [← Nat.add_assoc, Nat.add_right_comm]
        exact h.stops i (by omega)
  · rw [hreports, hrequests, List.mapIdx_cons, h.reports]
    simp only [Nat.add_zero, hfailure, Nat.add_assoc, Nat.add_comm 1]

/-- A failed attempt in front of a run leaves its ending. -/
theorem Ending.step
    (h : Ending outcomes (attempt + 1) n (some (lastError (outcomes attempt))) run)
    (hfailure : terminal (outcomes attempt) = false)
    (hrequests : (Run.after es run).requests = key :: run.requests)
    (hrefused : Event.refused ∉ es) :
    Ending outcomes attempt (n + 1) last (Run.after es run) := by
  have hshift : ∀ i, attempt + 1 + i = attempt + (i + 1) := by
    intro i
    omega
  have hall : ∀ {m}, (∀ i < m, terminal (outcomes (attempt + 1 + i)) = false) →
      ∀ i < m + 1, terminal (outcomes (attempt + i)) = false := by
    intro m hm i hi
    cases i with
    | zero => exact hfailure
    | succ i =>
        rw [← hshift]
        exact hm i (by omega)
  have hevents : Event.refused ∈ (Run.after es run).events ↔
      Event.refused ∈ run.events := by
    simp [Run.after, hrefused]
  cases h with
  | answered m resp acquired hlen houtcome hterminal hkey hresult hnot =>
      refine .answered (m + 1) resp acquired ?_ ?_ ?_ ?_ hresult (mt hevents.mp hnot)
      · rw [hrequests, List.length_cons, hlen]
      · rw [← hshift, houtcome]
      · rw [← hshift, hterminal]
      · rw [hrequests, List.getElem?_cons_succ, hkey]
  | exhausted hlen hothers hresult hnot =>
      refine .exhausted ?_ (hall hothers) hresult (mt hevents.mp hnot)
      rw [hrequests, List.length_cons, hlen]
  | refused hlen hothers hresult hmem =>
      refine .refused ?_ ?_ hresult (hevents.mpr hmem)
      · rw [hrequests, List.length_cons]
        omega
      · rw [hrequests, List.length_cons]
        exact hall hothers

end Shape

/-! ## The loop -/

section Loop

variable {env : Env} {outcomes : ℕ → Outcome} (maxRetries : UInt32)
  {baseDelayMs : UInt64} {n attempt : ℕ} (last : Option AppError) {p p' : KeyPool}
  {acquired : AcquiredKey}

/-- The run of a call that got no key for this attempt. -/
theorem tracked_of_refused {e : AppError} (h : p.acquireKey = (p', .error e)) :
    Tracked outcomes attempt (n + 1)
        (loop env maxRetries baseDelayMs (n + 1) attempt last p) ∧
      Ending outcomes attempt (n + 1) last
        (loop env maxRetries baseDelayMs (n + 1) attempt last p) := by
  obtain ⟨rfl, rfl⟩ := acquireKey_error h
  rw [loop_of_refused h]
  refine ⟨⟨Nat.zero_le _, fun i hi => absurd hi (Nat.not_lt_zero _), rfl⟩, ?_⟩
  exact .refused (Nat.succ_pos n) (fun i hi => absurd hi (Nat.not_lt_zero _)) rfl
    List.mem_cons_self

/-- The run of a call whose attempt has a terminal outcome. -/
theorem tracked_of_terminal
    (hrequest : env.makeRequest attempt acquired.key = some (outcomes attempt))
    (h : p.acquireKey = (p', .ok acquired))
    (hterminal : terminal (outcomes attempt) = true) :
    Tracked outcomes attempt (n + 1)
        (loop env maxRetries baseDelayMs (n + 1) attempt last p) ∧
      Ending outcomes attempt (n + 1) last
        (loop env maxRetries baseDelayMs (n + 1) attempt last p) := by
  cases houtcome : outcomes attempt with
  | error e => simp [houtcome, terminal] at hterminal
  | ok resp =>
      rw [loop_of_terminal h (by rw [hrequest, houtcome]) (by rw [← houtcome, hterminal])]
      refine ⟨⟨Nat.succ_le_succ (Nat.zero_le n), fun i hi => ?_, ?_⟩, ?_⟩
      · exact absurd hi (by simp [Run.after, returnArm, Run.requests])
      · simp [Run.after, returnArm, Run.requests, Run.reports, hterminal]
      · exact .answered 0 resp acquired rfl houtcome hterminal rfl rfl
          (by simp [Run.after, returnArm])

/-- **The loop is tracked and ends as it should**, if the report and the delay of
every failed attempt return. -/
theorem loop_tracked (hrequest : ∀ n key, env.makeRequest n key = some (outcomes n))
    (hdelays : AlongFailures env outcomes (DelayReturns env baseDelayMs) n attempt p)
    (hmasks : AlongFailures env outcomes MaskReturns n attempt p) :
    Tracked outcomes attempt n (loop env maxRetries baseDelayMs n attempt last p) ∧
      Ending outcomes attempt n last
        (loop env maxRetries baseDelayMs n attempt last p) := by
  induction n generalizing attempt last p with
  | zero =>
      refine ⟨⟨le_rfl, fun i hi => absurd hi (Nat.not_lt_zero _), rfl⟩, ?_⟩
      exact .exhausted rfl (fun i hi => absurd hi (Nat.not_lt_zero _)) rfl
        List.not_mem_nil
  | succ n ih =>
      rcases hacquire : p.acquireKey with ⟨p', e | acquired⟩
      · exact tracked_of_refused maxRetries last hacquire
      · cases hterminal : terminal (outcomes attempt) with
        | true =>
            exact tracked_of_terminal maxRetries last (hrequest _ _) hacquire hterminal
        | false =>
            simp only [AlongFailures, hacquire, hterminal, Bool.false_eq_true,
              false_or] at hdelays hmasks
            obtain ⟨hdelay, hdelays⟩ := hdelays
            obtain ⟨hmask, hmasks⟩ := hmasks
            have hreturns := (reportFailure_returns_iff (env.now attempt) attempt
              p' acquired).mpr hmask
            obtain ⟨slept, hslept, hloop⟩ := loop_of_failure_returns maxRetries n last
              hacquire (hrequest _ _) hterminal hreturns hdelay
            obtain ⟨htracked, hending⟩ := ih (some (lastError (outcomes attempt)))
              (hdelays hreturns) (hmasks hreturns)
            -- the rest of the run enters only through its requests and reports
            rw [hloop]
            generalize loop env maxRetries baseDelayMs n (attempt + 1) _ _ = run
              at htracked hending ⊢
            obtain ⟨hrequests, hreports, hrefused⟩ := after_failed_attempt acquired
              (env.now attempt) hslept run
            exact ⟨htracked.step hterminal hrequests hreports,
              hending.step hterminal hrequests hrefused⟩

/-- A call one of whose failure reports panics returns nothing. -/
theorem loop_panics (hrequest : ∀ n key, env.makeRequest n key = some (outcomes n))
    (hdelays : AlongFailures env outcomes (DelayReturns env baseDelayMs) n attempt p)
    (hmasks : ¬ AlongFailures env outcomes MaskReturns n attempt p) :
    (loop env maxRetries baseDelayMs n attempt last p).result = none := by
  induction n generalizing attempt last p with
  | zero => exact absurd trivial hmasks
  | succ n ih =>
      rcases hacquire : p.acquireKey with ⟨p', e | acquired⟩
      · simp [AlongFailures, hacquire] at hmasks
      · cases hterminal : terminal (outcomes attempt) with
        | true => simp [AlongFailures, hacquire, hterminal] at hmasks
        | false =>
            simp only [AlongFailures, hacquire, hterminal, Bool.false_eq_true,
              false_or] at hdelays hmasks
            obtain ⟨hdelay, hdelays⟩ := hdelays
            by_cases hmask : MaskReturns attempt p' acquired
            · have hreturns := (reportFailure_returns_iff (env.now attempt) attempt
                p' acquired).mpr hmask
              obtain ⟨slept, -, hloop⟩ := loop_of_failure_returns maxRetries n last
                hacquire (hrequest _ _) hterminal hreturns hdelay
              rw [hloop]
              exact ih _ (hdelays hreturns) fun h => hmasks ⟨hmask, fun _ => h⟩
            · refine loop_of_failure_panics hacquire (hrequest _ _) hterminal ?_
              have hnot := mt (reportFailure_returns_iff (env.now attempt) attempt
                p' acquired).mp hmask
              cases hresult : (p'.reportFailure (env.now attempt) acquired).2 with
              | none => rfl
              | some u => exact absurd hresult hnot

end Loop

/-! ## What the call makes of the pool -/

/-- The events of a run happen to the pool `p`, one after the other, and lead to the pool
the run leaves behind; and each request is issued with the key acquired before. -/
structure Replays (p : KeyPool) (run : Run) : Prop where
  pool : Runs.run perform p run.events = some run.pool
  acquisitions : run.acquisitions = run.requests

section Replay

variable {env : Env} {maxRetries : UInt32} {baseDelayMs : UInt64} {attempt : ℕ}
  {p p' : KeyPool} {acquired : AcquiredKey} {run : Run}

/-- A key acquired and a request issued with it, in front of a run. -/
theorem Replays.attempted (h : Replays p' run) (hacquire : p.acquireKey = (p', .ok acquired)) :
    Replays p (Run.after [.acquired acquired, .requested acquired.key] run) := by
  constructor
  · refine Runs.run_cons_eq_some.mpr ⟨p', ?_, Runs.run_cons_eq_some.mpr ⟨p', rfl, h.pool⟩⟩
    simp only [perform, hacquire, if_pos]
  · exact congrArg (acquired.key :: ·) h.acquisitions

/-- A reported failure, and the sleep after it, in front of a run. -/
theorem Replays.failed {now : Instant} {slept : List Event}
    (h : Replays (p.reportFailure now acquired).1 run)
    (hslept : slept = [] ∨ ∃ ms, slept = [.slept ms]) :
    Replays p (Run.after (.failed now acquired :: slept) run) := by
  rcases hslept with rfl | ⟨ms, rfl⟩ <;>
    exact ⟨Runs.run_cons_eq_some.mpr ⟨_, rfl, h.pool⟩, h.acquisitions⟩

/-- What a failed attempt does after its request happens to the pool, if what comes next
does. -/
theorem replays_failureArm {next : KeyPool → Run} (hnext : ∀ p, Replays p (next p)) :
    Replays p (failureArm env maxRetries baseDelayMs attempt p acquired next) := by
  rcases failureArm_cases env maxRetries baseDelayMs attempt p acquired next with
    heq | ⟨slept, hslept, heq⟩ <;> rw [heq]
  · exact ⟨rfl, rfl⟩
  · exact (hnext _).failed hslept

/-- **What the loop does happens to the pool**, also if it panics. -/
theorem loop_replays (env : Env) (maxRetries : UInt32) (baseDelayMs : UInt64)
    (n attempt : ℕ) (last : Option AppError) (p : KeyPool) :
    Replays p (loop env maxRetries baseDelayMs n attempt last p) := by
  induction n generalizing attempt last p with
  | zero => exact ⟨rfl, rfl⟩
  | succ n ih =>
      rcases hacquire : p.acquireKey with ⟨p', e | acquired⟩
      · obtain ⟨rfl, rfl⟩ := acquireKey_error hacquire
        rw [loop_of_refused hacquire]
        refine ⟨?_, rfl⟩
        simp [Runs.run, perform, hacquire]
      · rcases hrequest : env.makeRequest attempt acquired.key with - | outcome
        · -- building the request panics
          simp only [loop, hacquire, hrequest]
          exact Replays.attempted ⟨rfl, rfl⟩ hacquire
        · cases hterminal : terminal outcome with
          | true =>
              rcases outcome with e | resp
              · cases hterminal
              · rw [loop_of_terminal hacquire hrequest hterminal]
                exact Replays.attempted ⟨rfl, rfl⟩ hacquire
          | false =>
              rw [loop_of_failure hacquire hrequest hterminal]
              exact (replays_failureArm fun p => ih _ _ p).attempted hacquire

end Replay

/-! ## The whole call -/

section Call

variable {outcomes : ℕ → Outcome}

/-- The text a failed attempt leaves behind. -/
theorem exists_lastError (outcome : Outcome) :
    ∃ text, lastError outcome = .downstream text ∧ ∀ message, message = text ↔
      (∃ resp, outcome = .ok resp ∧
          message = "HTTP " ++ toString resp.status.asU16.toNat) ∨
        ∃ e, outcome = .error e ∧ message = e.text := by
  cases outcome with
  | ok resp => exact ⟨_, rfl, by simp⟩
  | error e => exact ⟨_, rfl, by simp⟩

theorem finalError_succ (n attempt : ℕ) (last : Option AppError) :
    finalError outcomes (n + 1) attempt last = lastError (outcomes (attempt + n)) := by
  induction n generalizing attempt last with
  | zero => rfl
  | succ n ih =>
      rw [finalError, ih]
      congr 2
      omega

variable {maxRetries : UInt32} {p : KeyPool} {run : Run}

/-- A tracked run that ends with an answer is accounted for. -/
theorem accounted_of_answered
    (hreplays : Replays p run) (h : Tracked outcomes 0 (maxRetries.toNat + 1) run) {m : ℕ}
    {resp : Response} {acquired : AcquiredKey} (hlen : run.requests.length = m + 1)
    (houtcome : outcomes m = .ok resp) (hterminal : terminal (outcomes m) = true)
    (hkey : run.requests[m]? = some acquired.key)
    (hresult : run.result = some (.ok (resp, acquired)))
    (hrefused : Event.refused ∉ run.events) : Accounted outcomes maxRetries p run where
  pool := hreplays.pool
  acquisitions := hreplays.acquisitions
  returns := Or.inl ⟨resp, acquired, hresult⟩
  requests_le := h.requests_le
  stops := by simpa using h.stops
  reports := by simpa using h.reports
  ok_iff resp' acquired' := by
    rw [hresult]
    constructor
    · intro heq
      obtain ⟨rfl, rfl⟩ := Prod.mk.inj (Except.ok.inj (Option.some.inj heq))
      exact ⟨m, hlen, houtcome, hterminal, hkey⟩
    · -- the last request is unique, and so are its outcome and its key
      rintro ⟨m', hlen', houtcome', -, hkey'⟩
      obtain rfl : m' = m := by omega
      obtain rfl : resp = resp' := Except.ok.inj (houtcome.symm.trans houtcome')
      obtain ⟨key⟩ := acquired
      obtain ⟨key'⟩ := acquired'
      obtain rfl : key = key' := Option.some.inj (hkey.symm.trans hkey')
      rfl
  downstream_iff message := by
    refine iff_of_false (by simp [hresult]) ?_
    rintro ⟨-, hall, -⟩
    rw [hall m (by omega)] at hterminal
    cases hterminal
  noKeys_iff := iff_of_false (by simp [hresult]) hrefused
  not_internal := by simp [hresult]

/-- A tracked run that ends with its attempts exhausted is accounted for. -/
theorem accounted_of_exhausted
    (hreplays : Replays p run) (h : Tracked outcomes 0 (maxRetries.toNat + 1) run)
    (hlen : run.requests.length = maxRetries.toNat + 1)
    (hall : ∀ i < maxRetries.toNat + 1, terminal (outcomes i) = false)
    (hresult : run.result = some (.error (lastError (outcomes maxRetries.toNat))))
    (hrefused : Event.refused ∉ run.events) : Accounted outcomes maxRetries p run := by
  obtain ⟨text, hlast, htext⟩ := exists_lastError (outcomes maxRetries.toNat)
  rw [hlast] at hresult
  exact
    { pool := hreplays.pool
      acquisitions := hreplays.acquisitions
      returns := Or.inr (Or.inl ⟨text, hresult⟩)
      requests_le := h.requests_le
      stops := by simpa using h.stops
      reports := by simpa using h.reports
      ok_iff := by
        intro resp acquired
        refine iff_of_false (by simp [hresult]) ?_
        rintro ⟨m, hlen', -, hterminal, -⟩
        rw [hall m (by omega)] at hterminal
        cases hterminal
      downstream_iff := by
        intro message
        rw [hresult]
        constructor
        · intro heq
          obtain rfl : text = message :=
            AppError.downstream.inj (Except.error.inj (Option.some.inj heq))
          exact ⟨hlen, fun i hi => hall i (by omega), (htext text).mp rfl⟩
        · rintro ⟨-, -, heq⟩
          rw [(htext message).mpr heq]
      noKeys_iff := iff_of_false (by simp [hresult]) hrefused
      not_internal := by simp [hresult] }

/-- A tracked run that ends for lack of keys is accounted for. -/
theorem accounted_of_noKeys
    (hreplays : Replays p run) (h : Tracked outcomes 0 (maxRetries.toNat + 1) run)
    (hlen : run.requests.length < maxRetries.toNat + 1)
    (hall : ∀ i < run.requests.length, terminal (outcomes i) = false)
    (hresult : run.result = some (.error .noKeysAvailable))
    (hrefused : Event.refused ∈ run.events) : Accounted outcomes maxRetries p run where
  pool := hreplays.pool
  acquisitions := hreplays.acquisitions
  returns := Or.inr (Or.inr hresult)
  requests_le := h.requests_le
  stops := by simpa using h.stops
  reports := by simpa using h.reports
  ok_iff resp acquired := by
    refine iff_of_false (by simp [hresult]) ?_
    rintro ⟨m, hlen', -, hterminal, -⟩
    rw [hall m (by omega)] at hterminal
    cases hterminal
  downstream_iff message := iff_of_false (by simp [hresult]) fun hlast => by omega
  noKeys_iff := iff_of_true hresult hrefused
  not_internal := by simp [hresult]

/-- A tracked run that ends as it should is accounted for. -/
theorem accounted_of_tracked
    (hreplays : Replays p run) (htracked : Tracked outcomes 0 (maxRetries.toNat + 1) run)
    (hending : Ending outcomes 0 (maxRetries.toNat + 1) none run) :
    Accounted outcomes maxRetries p run := by
  cases hending with
  | answered m resp acquired hlen houtcome hterminal hkey hresult hrefused =>
      rw [Nat.zero_add] at houtcome hterminal
      exact accounted_of_answered hreplays htracked hlen houtcome hterminal hkey hresult hrefused
  | exhausted hlen hall hresult hrefused =>
      rw [finalError_succ] at hresult
      simp only [Nat.zero_add] at hall hresult
      exact accounted_of_exhausted hreplays htracked hlen hall hresult hrefused
  | refused hlen hall hresult hrefused =>
      simp only [Nat.zero_add] at hall
      exact accounted_of_noKeys hreplays htracked hlen hall hresult hrefused

/-- The retry loop is exactly accounted, if and only if every failure report of
the call that trips a key has a mask for it. -/
theorem withRetry_accounted_iff {env : Env}
    (hrequest : ∀ n key, env.makeRequest n key = some (outcomes n))
    (maxRetries : UInt32) (baseDelayMs : UInt64) (p : KeyPool)
    (hdelays : AlongFailures env outcomes (DelayReturns env baseDelayMs)
      (maxRetries.toNat + 1) 0 p) :
    Accounted outcomes maxRetries p (withRetry env maxRetries baseDelayMs p) ↔
      AlongFailures env outcomes MaskReturns (maxRetries.toNat + 1) 0 p := by
  constructor
  · intro haccounted
    by_contra hmasks
    have hnone := loop_panics maxRetries none hrequest hdelays hmasks
    rcases haccounted.returns with ⟨resp, acquired, h⟩ | ⟨message, h⟩ | h <;>
      exact absurd (h.symm.trans hnone) (by simp)
  · intro hmasks
    obtain ⟨htracked, hending⟩ := loop_tracked maxRetries none hrequest
      hdelays hmasks
    have hreplays := loop_replays env maxRetries baseDelayMs (maxRetries.toNat + 1) 0 none p
    exact accounted_of_tracked hreplays htracked hending

end Call

/-! ## Two calls -/

/-- An environment that answers with the given statuses, at time zero, and draws
the shortest delays. -/
def answering (statuses : ℕ → StatusCode) : Env where
  makeRequest n _ := some (.ok (Response.ofStatus (statuses n)))
  now _ := 0
  rng _ := .lowest

/-- A service unavailable once, then an answer. -/
theorem withRetry_accounted_one_retry :
    Accounted (fun n => .ok (Response.ofStatus (if n = 0 then ⟨503, by decide⟩
        else ⟨200, by decide⟩))) 3 (KeyPool.new [⟨"tp-1", 1⟩])
      (withRetry (answering fun n => if n = 0 then ⟨503, by decide⟩
        else ⟨200, by decide⟩) 3 500 (KeyPool.new [⟨"tp-1", 1⟩])) :=
  (withRetry_accounted_iff (fun _ _ => rfl) 3 500 (KeyPool.new [⟨"tp-1", 1⟩])
    (Or.inr ⟨fun _ => by decide, fun _ => Or.inl rfl⟩)).mpr
    (Or.inr ⟨fun k hk hle => by cases hk; exact absurd hle (by decide),
      fun _ => Or.inl rfl⟩)

/-- A key of three-byte characters has no mask, so the third failure of a call
that makes three attempts panics: all requests were issued and failed, and the call
returns no error. -/
theorem withRetry_not_accounted :
    (KeyPool.new [⟨"日本語日", 1⟩]).DistinctKeys ∧
      ¬ Accounted (fun _ => .ok (Response.ofStatus ⟨503, by decide⟩)) 2
        (KeyPool.new [⟨"日本語日", 1⟩]) (withRetry (answering fun _ => ⟨503, by decide⟩) 2 500
          (KeyPool.new [⟨"日本語日", 1⟩])) := by
  refine ⟨by decide, fun h => ?_⟩
  have hissued : (withRetry (answering fun _ => ⟨503, by decide⟩) 2 500
      (KeyPool.new [⟨"日本語日", 1⟩])).requests.length = 3 := by decide
  have hresult := (h.downstream_iff "HTTP 503").mpr
    ⟨hissued, fun _ _ => by decide, Or.inl ⟨_, rfl, by decide⟩⟩
  have hnone : (withRetry (answering fun _ => ⟨503, by decide⟩) 2 500
      (KeyPool.new [⟨"日本語日", 1⟩])).result = none := rfl
  rw [hnone] at hresult
  cases hresult

end XiaomiProxy.Retry
