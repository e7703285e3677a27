import XiaomiProxy.Handlers.DownstreamSync
import XiaomiProxy.Lib.Ledger
import XiaomiProxy.Proxy.Forwarder

/-!
# Requests to the providers

The downstream requests of any number of calls, in any order: each is sent with a key
acquired for it, and its answer leads to a report.  The operations of the admin and the
recovery tasks come in between.

`Traffic` keeps, beside the state, the requests that were not answered yet, and two
counts that no step looks at: the acquisitions that have ended, because their request was
answered or could not be built, and those that were reported.

A call of either forwarder is a run of these steps (`isRun_forwardStreaming`,
`isRun_forwardRequest`).  Whether each acquisition leads to a report is a matter of the
single steps (`ended_eq_reported_iff`).
-/

namespace XiaomiProxy

/-- The two ways to forward. -/
inductive Mode where
  | retried
  | streamed
  deriving DecidableEq, Repr

/-- The report a forwarder makes of an outcome. -/
def Mode.verdict : Mode → Outcome → Option Bool
  | .retried => Forwarder.retryVerdict
  | .streamed => Forwarder.streamingVerdict

/-- A downstream request that was sent: the key acquired for it, and who sent it. -/
structure Sent where
  acquired : AcquiredKey
  mode : Mode
  deriving DecidableEq, Repr

structure Traffic where
  state : AppState
  sent : Multiset Sent
  ended : Multiset AcquiredKey
  reported : Multiset AcquiredKey

inductive TrafficOp where
  | admin (op : DownstreamOp)
  | send (mode : Mode) (request : Forwarder.ClientRequest)
  | answer (sent : Sent) (now : Instant) (outcome : Outcome)
  | recover (task : RecoveryTask)

namespace Traffic

/-- A program that has sent nothing. -/
def start (state : AppState) : Traffic where
  state
  sent := 0
  ended := 0
  reported := 0

/-- One step.  A request is answered once. -/
def step (s : Traffic) : TrafficOp → Option Traffic
  | .admin op => (s.state.downstreamStep op).map fun state => { s with state }
  | .send mode request =>
      match s.state.keyPool.acquireKey with
      | (keyPool, .error _) => some { s with state := { s.state with keyPool } }
      | (keyPool, .ok acquired) =>
          match Forwarder.downstreamRequest s.state.config request acquired.key with
          -- the call ends in the panic, and takes its acquisition with it
          | none => some { s with
              state := { s.state with keyPool }
              ended := s.ended + {acquired} }
          | some _ => some { s with
              state := { s.state with keyPool }
              sent := s.sent + {{ acquired, mode }} }
  | .answer sent now outcome =>
      if sent ∈ s.sent then
        let verdict := sent.mode.verdict outcome
        some {
          state := { s.state with
            keyPool := Forwarder.judged now s.state.keyPool sent.acquired verdict }
          sent := s.sent.erase sent
          ended := s.ended + {sent.acquired}
          reported := s.reported + if verdict.isSome then {sent.acquired} else 0 }
      else none
  | .recover task =>
      if task ∈ s.state.keyPool.tasks then
        some { s with state := { s.state with keyPool := s.state.keyPool.recover task } }
      else none

/-! ## Acquisitions and reports -/

/-- The step does not end an acquisition without a report: the request of a key that is
acquired can be built, and an answer leads to a report. -/
def Reports (s : Traffic) : TrafficOp → Prop
  | .send _ request => ∀ k, s.state.keyPool.selectKey = .ok k →
      (Forwarder.downstreamRequest s.state.config request k.val.key).isSome = true
  | .answer sent _ outcome => (sent.mode.verdict outcome).isSome = true
  | .admin _ | .recover _ => True

section Step

variable {s s' : Traffic} {op : TrafficOp}

/-- What a step does to the two counts. -/
theorem entered_step (hstep : s.step op = some s') :
    Ledger.Entered (s.Reports op) s.reported s.ended s'.reported s'.ended := by
  cases op with
  | admin op =>
      obtain ⟨state, -, rfl⟩ := Option.map_eq_some_iff.mp hstep
      exact Or.inl ⟨trivial, 0, (add_zero _).symm, (add_zero _).symm⟩
  | send mode request =>
      rcases s.state.keyPool.acquireKey_cases with
        ⟨e, hselect, hacquire⟩ | ⟨k, index, hselect, -, -, hacquire⟩ <;>
        simp only [step, hacquire] at hstep
      · cases hstep
        refine Or.inl ⟨fun k hk => ?_, 0, (add_zero _).symm, (add_zero _).symm⟩
        rw [hselect] at hk
        cases hk
      · cases hbuild : Forwarder.downstreamRequest s.state.config request k.val.key with
        | none =>
            rw [hbuild] at hstep
            cases hstep
            refine Or.inr ⟨fun hreports => ?_, rfl, { key := k.val.key }, rfl⟩
            have hbuilt := hreports k hselect
            rw [hbuild] at hbuilt
            cases hbuilt
        | some sent =>
            rw [hbuild] at hstep
            cases hstep
            refine Or.inl ⟨fun l hl => ?_, 0, (add_zero _).symm, (add_zero _).symm⟩
            obtain rfl : k = l := Except.ok.inj (hselect.symm.trans hl)
            rw [hbuild]
            rfl
  | answer sent now outcome =>
      obtain ⟨-, hstep⟩ := Option.ite_none_right_eq_some.mp hstep
      cases hstep
      by_cases hreport : (sent.mode.verdict outcome).isSome = true
      · refine Or.inl ⟨hreport, {sent.acquired}, ?_, rfl⟩
        simp only [if_pos hreport]
      · refine Or.inr ⟨hreport, ?_, sent.acquired, rfl⟩
        simp only [if_neg hreport, add_zero]
  | recover task =>
      obtain ⟨-, hstep⟩ := Option.ite_none_right_eq_some.mp hstep
      cases hstep
      exact Or.inl ⟨trivial, 0, (add_zero _).symm, (add_zero _).symm⟩

end Step

/-- **Every acquisition that ended was reported exactly if every step on the way
reports.** -/
theorem ended_eq_reported_iff {s t : Traffic} {ops : List TrafficOp}
    (hs : s.reported = s.ended) (hrun : Runs.run step s ops = some t) :
    t.reported = t.ended ↔ Runs.Along step Reports s ops :=
  Ledger.run_balanced_iff (fun _ _ _ => entered_step) hs hrun

/-! ## The calls of the forwarders -/

/-- The acquisitions of a call, in order. -/
def acquiredIn (events : List Retry.Event) : List AcquiredKey :=
  events.filterMap fun
    | .acquired acquired => some acquired
    | _ => none

/-- The acquisitions a call reported, in order. -/
def reportedIn (events : List Retry.Event) : List AcquiredKey :=
  events.filterMap fun
    | .succeeded acquired => some acquired
    | .failed _ acquired => some acquired
    | _ => none

theorem acquiredIn_append (es es' : List Retry.Event) :
    acquiredIn (es ++ es') = acquiredIn es ++ acquiredIn es' := List.filterMap_append

theorem reportedIn_append (es es' : List Retry.Event) :
    reportedIn (es ++ es') = reportedIn es ++ reportedIn es' := List.filterMap_append

/-- What a call leaves behind that did this and left this pool: it has nothing out, and
all its acquisitions have ended. -/
structure LeftBy (s : Traffic) (keyPool : KeyPool) (events : List Retry.Event)
    (t : Traffic) : Prop where
  state : t.state = { s.state with keyPool }
  sent : t.sent = s.sent
  ended : t.ended = s.ended + (acquiredIn events : Multiset AcquiredKey)
  reported : t.reported = s.reported + (reportedIn events : Multiset AcquiredKey)

/-- A call that is a run of the machine. -/
def IsRun (s : Traffic) (keyPool : KeyPool) (events : List Retry.Event) : Prop :=
  ∃ ops t, Runs.run step s ops = some t ∧ LeftBy s keyPool events t

section Calls

variable {s m : Traffic} {mode : Mode} {request : Forwarder.ClientRequest}
  {p p' : KeyPool} {acquired : AcquiredKey} {es' : List Retry.Event}

/-- One stretch of a call after another. -/
theorem IsRun.append (es : List Retry.Event) (ops : List TrafficOp)
    (hrun : Runs.run step s ops = some m) (hleft : LeftBy s p es m)
    (h : IsRun m p' es') : IsRun s p' (es ++ es') := by
  obtain ⟨ops', t, hrun', hleft'⟩ := h
  refine ⟨ops ++ ops', t, Runs.run_append_eq_some.mpr ⟨m, hrun, hrun'⟩, ?_, ?_, ?_, ?_⟩
  · rw [hleft'.state, hleft.state]
  · rw [hleft'.sent, hleft.sent]
  · rw [hleft'.ended, hleft.ended, acquiredIn_append, ← Multiset.coe_add, add_assoc]
  · rw [hleft'.reported, hleft.reported, reportedIn_append, ← Multiset.coe_add, add_assoc]

/-- A call that does nothing. -/
theorem isRun_nil (s : Traffic) : IsRun s s.state.keyPool [] :=
  ⟨[], s, rfl, rfl, rfl, (add_zero _).symm, (add_zero _).symm⟩

/-- A call that gets no key. -/
theorem isRun_refused {e : AppError} (mode : Mode) (request : Forwarder.ClientRequest)
    (h : s.state.keyPool.acquireKey = (p', .error e)) : IsRun s p' [.refused] := by
  refine ⟨[.send mode request], { s with state := { s.state with keyPool := p' } }, ?_,
    rfl, rfl, (add_zero _).symm, (add_zero _).symm⟩
  simp only [Runs.run, step, h]
  rfl

/-- A call that gets a key it cannot build a request with. -/
theorem isRun_panicked (mode : Mode) (h : s.state.keyPool.acquireKey = (p', .ok acquired))
    (hbuild : Forwarder.downstreamRequest s.state.config request acquired.key = none) :
    IsRun s p' [.acquired acquired, .requested acquired.key] := by
  refine ⟨[.send mode request], { s with
    state := { s.state with keyPool := p' }
    ended := s.ended + {acquired} }, ?_, rfl, rfl, rfl, (add_zero _).symm⟩
  simp only [Runs.run, step, h, hbuild]
  rfl

/-- An attempt that is answered: a request, and the report of its outcome. -/
theorem run_answered (mode : Mode) (now : Instant) (outcome : Outcome)
    {sent : DownstreamRequest} (h : s.state.keyPool.acquireKey = (p', .ok acquired))
    (hbuild : Forwarder.downstreamRequest s.state.config request acquired.key = some sent) :
    Runs.run step s [.send mode request, .answer { acquired, mode } now outcome] = some {
      state := { s.state with
        keyPool := Forwarder.judged now p' acquired (mode.verdict outcome) }
      sent := s.sent
      ended := s.ended + {acquired}
      reported := s.reported
        + if (mode.verdict outcome).isSome then {acquired} else 0 } := by
  simp only [Runs.run, step, h, hbuild, Option.bind_some]
  rw [if_pos (Multiset.mem_add.mpr (Or.inr (Multiset.mem_singleton_self _))),
    Multiset.erase_add_right_pos _ (Multiset.mem_singleton_self _),
    Multiset.erase_singleton, add_zero]
  rfl

/-- **A streaming call is a run of the machine.** -/
theorem isRun_forwardStreaming (downstream : Forwarder.Downstream) (s : Traffic)
    (request : Forwarder.ClientRequest) :
    IsRun s
      (Forwarder.forwardStreaming downstream s.state.config s.state.keyPool request).pool
      (Forwarder.forwardStreaming downstream s.state.config s.state.keyPool request).events := by
  unfold Forwarder.forwardStreaming
  rcases hacquire : s.state.keyPool.acquireKey with ⟨p', e | acquired⟩
  · exact isRun_refused .streamed request hacquire
  · cases hbuild : Forwarder.downstreamRequest s.state.config request acquired.key with
    | none =>
        simp only [hbuild]
        exact isRun_panicked .streamed hacquire hbuild
    | some sent =>
        simp only [hbuild]
        have hrun := run_answered .streamed (downstream.now 0) (downstream.send 0 sent)
          hacquire hbuild
        refine ⟨_, _, hrun, ?_⟩
        simp only [Mode.verdict]
        cases houtcome : downstream.send 0 sent with
        | error e => exact ⟨rfl, rfl, rfl, rfl⟩
        | ok resp =>
            simp only [Forwarder.streamingVerdict]
            cases hsuccess : resp.status.isSuccess <;> exact ⟨rfl, rfl, rfl, rfl⟩

/-- The loop of a call, from an attempt on. -/
theorem isRun_loop (downstream : Forwarder.Downstream) (maxRetries : UInt32)
    (baseDelayMs : UInt64) (n attempt : ℕ) (last : Option AppError) (s : Traffic) :
    let run := Retry.loop (Forwarder.retryEnv downstream s.state.config request) maxRetries
      baseDelayMs n attempt last s.state.keyPool
    IsRun s run.pool run.events := by
  induction n generalizing attempt last s with
  | zero => exact isRun_nil s
  | succ n ih =>
      intro run
      rcases hacquire : s.state.keyPool.acquireKey with ⟨p', e | acquired⟩
      · have hrun : run = _ := Retry.loop_of_refused hacquire
        rw [hrun]
        exact isRun_refused .retried request hacquire
      · cases hbuild : Forwarder.downstreamRequest s.state.config request acquired.key with
        | none =>
            have hrun : run = Retry.Run.after [.acquired acquired, .requested acquired.key]
                { pool := p', events := [], result := none } := by
              simp only [run, Retry.loop, hacquire, Forwarder.retryEnv, hbuild]
              rfl
            rw [hrun]
            exact isRun_panicked .retried hacquire hbuild
        | some sent =>
            have hanswered := run_answered .retried (downstream.now attempt)
              (downstream.send attempt sent) hacquire hbuild
            have hrequest : (Forwarder.retryEnv downstream s.state.config request).makeRequest
                attempt acquired.key = some (downstream.send attempt sent) := by
              simp [Forwarder.retryEnv, hbuild]
            generalize downstream.send attempt sent = outcome at hanswered hrequest
            cases hterminal : Retry.terminal outcome with
            | true =>
                cases outcome with
                | error e => simp [Retry.terminal] at hterminal
                | ok resp =>
                    have hrun : run = _ := Retry.loop_of_terminal hacquire hrequest hterminal
                    rw [hrun]
                    refine ⟨_, _, hanswered, ?_⟩
                    simp only [Mode.verdict, Forwarder.retryVerdict, hterminal]
                    exact ⟨rfl, rfl, rfl, rfl⟩
            | false =>
                have hrun : run = _ := Retry.loop_of_failure hacquire hrequest hterminal
                simp only [Mode.verdict, Forwarder.retryVerdict, hterminal] at hanswered
                -- the attempt ends with its report, and the call there or after the rest
                have hcases := Retry.failureArm_cases
                  (Forwarder.retryEnv downstream s.state.config request) maxRetries
                  baseDelayMs attempt p' acquired fun p => Retry.loop
                    (Forwarder.retryEnv downstream s.state.config request) maxRetries
                    baseDelayMs n (attempt + 1) (some (Retry.lastError outcome)) p
                rcases hcases with heq | ⟨slept, hslept, heq⟩
                · rw [hrun, heq]
                  exact ⟨_, _, hanswered, rfl, rfl, rfl, rfl⟩
                · have hrest := ih (attempt + 1) (some (Retry.lastError outcome))
                    { state := { s.state with
                        keyPool := (p'.reportFailure (downstream.now attempt) acquired).1 }
                      sent := s.sent
                      ended := s.ended + {acquired}
                      reported := s.reported + {acquired} }
                  rw [hrun, heq]
                  refine IsRun.append ([.acquired acquired, .requested acquired.key,
                    .failed (downstream.now attempt) acquired] ++ slept) _ hanswered
                    ⟨rfl, rfl, ?_, ?_⟩ hrest
                  · rcases hslept with rfl | ⟨ms, rfl⟩ <;> rfl
                  · rcases hslept with rfl | ⟨ms, rfl⟩ <;> rfl

/-- **A call that retries is a run of the machine.** -/
theorem isRun_forwardRequest (downstream : Forwarder.Downstream) (s : Traffic)
    (request : Forwarder.ClientRequest) :
    IsRun s
      (Forwarder.forwardRequest downstream s.state.config s.state.keyPool request).pool
      (Forwarder.forwardRequest downstream s.state.config s.state.keyPool request).events :=
  isRun_loop downstream s.state.config.downstream.maxRetries
    s.state.config.downstream.retryBaseMs _ 0 none s

end Calls

end Traffic

end XiaomiProxy
