import XiaomiProxy.Proxy.Backoff
import XiaomiProxy.Proxy.DownstreamHeaders
import XiaomiProxy.Handlers.Attachment
import XiaomiProxy.Handlers.Masking
import XiaomiProxy.Server.Alone
import XiaomiProxy.Server.Progress

/-!
# Every request is answered

A handler panics where a key has no mask or is no header value, and where a backoff
overflows.  The keys of clients never are the reason, since they came in a header.  So if
the keys of the pool are `Usable` and the backoff is safe, the server drops no request but
those whose clients go away (`answered_unless_abandoned`).

The invariant is `Careful`: the keys of the pool are usable, and those about to be added;
no attempt is later than the last one; and a call waits for the forwarder that its handler
calls.
-/

namespace XiaomiProxy

/-- A key that has a mask, and makes a header value. -/
structure Usable (key : String) : Prop where
  sliceable : Config.Sliceable key
  clean : HeaderValue.Clean key

/-! ## Handlers that return -/

namespace Handled

theorem isSome_andThen {α : Type} {step : Option (Except AppError α)} {next : α → Handled}
    (hstep : step.isSome = true) (hnext : ∀ a, (next a).result.isSome = true) :
    (andThen step next).result.isSome = true := by
  rcases step with _ | e | a
  · cases hstep
  · rfl
  · exact hnext a

end Handled

namespace Handlers

variable {env : Env} (hrequest : ∀ request, (env.forwardRequest request).isSome = true)
include hrequest

theorem isSome_plainCall (path : String) (headers : HeaderMap) (body : Json) :
    (plainCall env path headers body).result.isSome = true := by
  refine Handled.isSome_andThen rfl fun bytes => ?_
  exact Handled.isSome_andThen (hrequest _) fun answer => rfl

theorem isSome_modelCall (hstreaming : ∀ request, (env.forwardStreaming request).isSome = true)
    (protocol : Protocol) (path : String) (usageOf : Bytes → Usage) {clientKey : ClientKey}
    (hmask : (Config.maskKey clientKey.key).isSome = true) (headers : HeaderMap)
    (body : Json) :
    (modelCall env protocol path usageOf clientKey headers body).result.isSome = true := by
  have hmasked : ((Config.maskKey clientKey.key).map
      (Except.ok : String → Except AppError String)).isSome = true := by
    rwa [Option.isSome_map]
  refine Handled.isSome_andThen rfl fun bytes => ?_
  split
  · exact Handled.isSome_andThen (hstreaming _) fun response =>
      Handled.isSome_andThen hmasked fun _ => rfl
  · exact Handled.isSome_andThen (hrequest _) fun answer =>
      Handled.isSome_andThen hmasked fun _ => rfl

/-- A handler returns, if its forwarders do and the client key has a mask. -/
theorem isSome_handle (hstreaming : ∀ request, (env.forwardStreaming request).isSome = true)
    {clientKey : ClientKey} (hmask : (Config.maskKey clientKey.key).isSome = true)
    (headers : HeaderMap) (body : Json) (route : ProxyRoute) :
    (route.handle env clientKey headers body).result.isSome = true := by
  rcases route with (_ | _ | _ | _) | _
  · exact isSome_modelCall hrequest hstreaming _ _ _ hmask _ _
  · exact isSome_plainCall hrequest _ _ _
  · exact isSome_plainCall hrequest _ _ _
  · exact isSome_modelCall hrequest hstreaming _ _ _ hmask _ _
  · exact Handled.isSome_andThen (hrequest _) fun answer => rfl

end Handlers

/-- The forwarder that returned. -/
def Returned.mode : Returned → Mode
  | .whole _ => .retried
  | .stream _ => .streamed

namespace Call

variable {crates : Crates} {call : Call} {request : Forwarder.ClientRequest}

/-- The key of a client came in a header. -/
theorem isSome_maskKey (call : Call) : (Config.maskKey call.clientKey.key).isSome = true := by
  obtain ⟨masked, hmask⟩ := Config.maskKey_of_ascii (Auth.ascii_of_extractKey call.shown)
  rw [hmask]
  rfl

/-- **A handler that waits for its forwarder returns with it.** -/
theorem isSome_handled (elapsed : Duration) (returned : Returned)
    (hforwarded : call.route.forwarded crates.serde call.headers call.body
      = some (returned.mode, request)) :
    (call.handled crates elapsed (some returned)).result.isSome = true := by
  -- the other forwarder is not called, so it may as well return
  cases returned with
  | whole result =>
      obtain ⟨next, hnext⟩ := ProxyRoute.handle_retried call.clientKey elapsed hforwarded
      have hreturns : (call.route.handle
          { serde := crates.serde
            forwardRequest := fun _ => some result
            forwardStreaming := fun _ => some (.error .unauthorized)
            elapsed } call.clientKey call.headers call.body).result.isSome = true :=
        Handlers.isSome_handle (fun _ => rfl) (fun _ => rfl) call.isSome_maskKey _ _ _
      rw [hnext] at hreturns
      rw [handled, hnext]
      exact hreturns
  | stream result =>
      obtain ⟨next, hnext⟩ := ProxyRoute.handle_streamed call.clientKey elapsed hforwarded
      have hreturns : (call.route.handle
          { serde := crates.serde
            forwardRequest := fun _ => some (.error .unauthorized)
            forwardStreaming := fun _ => some result
            elapsed } call.clientKey call.headers call.body).result.isSome = true :=
        Handlers.isSome_handle (fun _ => rfl) (fun _ => rfl) call.isSome_maskKey _ _ _
      rw [hnext] at hreturns
      rw [handled, hnext]
      exact hreturns

/-- So does one that does not get to a forwarder. -/
theorem isSome_handled_none (elapsed : Duration)
    (hforwarded : call.route.forwarded crates.serde call.headers call.body = none) :
    (call.handled crates elapsed none).result.isSome = true := by
  obtain ⟨handled', hhandled⟩ := Server.handle_unforwarded elapsed call.clientKey hforwarded
  rw [handled, hhandled, ← hhandled (fun _ => some (.error .unauthorized))
    fun _ => some (.error .unauthorized)]
  exact Handlers.isSome_handle (fun _ => rfl) (fun _ => rfl) call.isSome_maskKey _ _ _

end Call

/-! ## Pools of usable keys -/

namespace KeyPool

variable {p p' : KeyPool} {acquired : AcquiredKey}

/-- A report on a pool of usable keys returns. -/
theorem reportFailure_returns (h : ∀ key ∈ p.keyNames, Usable key) (now : Instant) :
    (p.reportFailure now acquired).2 = some () := by
  cases hentry : p.entryOf? acquired.key with
  | none => rw [reportFailure_of_none hentry]
  | some k =>
      by_cases htrip : 3 ≤ k.val.consecutiveErrors + 1
      · have hkey : k.val.key ∈ p.keyNames := List.mem_map_of_mem (entryOf?_mem hentry)
        exact (reportFailure_spawns hentry htrip (h k.val.key hkey).sliceable).1
      · rw [reportFailure_of_lt hentry htrip]

theorem mem_keyNames_of_acquireKey (h : p.acquireKey = (p', .ok acquired)) :
    acquired.key ∈ p.keyNames := by
  rcases p.acquireKey_cases with ⟨e, -, heq⟩ | ⟨k, index, -, hk, -, heq⟩
  · cases heq.symm.trans h
  · obtain ⟨-, hacquired⟩ := Prod.mk.inj (heq.symm.trans h)
    obtain rfl := Except.ok.inj hacquired
    exact List.mem_map_of_mem hk

end KeyPool

/-! ## The invariant -/

/-- The key a change gives to the pool. -/
def AdminChange.poolKey? : AdminChange → Option String
  | .addDownstreamKey payload => some (Str.trim payload.key)
  | .updateDownstreamKey key _ => some key
  | .clientKey _ | .deleteDownstreamKey _ => none

def Request.poolKey? : Request → Option String
  | .change _ made => made.poolKey?
  | .proxy _ _ _ | .query _ _ | .health => none

namespace Task

/-- The call a task is part of, and the forwarder it is in. -/
def waits? : Task → Option (Call × Mode)
  | .retrying call _ _ _ | .retried call _ _ _ _ => some (call, .retried)
  | .streaming call _ _ | .streamed call _ _ => some (call, .streamed)
  | .reading call _ returned => some (call, returned.mode)
  | .limiting _ | .recording _ | .changing _ _ | .updating _ _ | .querying _ _ => none

def attempt : Task → ℕ
  | .retrying _ _ _ attempt | .retried _ _ _ attempt _ => attempt
  | .limiting _ | .streaming _ _ _ | .streamed _ _ _ | .reading _ _ _ => 0
  | .recording _ | .changing _ _ | .updating _ _ | .querying _ _ => 0

/-- A task that will not panic, among `n` retries and a pool of usable keys. -/
structure Careful (serde : SerdeJson) (n : ℕ) (task : Task) : Prop where
  forwards : ∀ call mode, task.waits? = some (call, mode) →
    ∃ request, call.route.forwarded serde call.headers call.body = some (mode, request)
  attempt : task.attempt ≤ n
  poolKey : ∀ request, task.request? = some request → ∀ key, request.poolKey? = some key →
    Usable key

/-- A task outside the forwarders. -/
theorem Careful.of_idle {serde : SerdeJson} {n : ℕ} {task : Task} (hwaits : task.waits? = none)
    (hattempt : task.attempt = 0)
    (hpoolKey : ∀ request, task.request? = some request → ∀ key,
      request.poolKey? = some key → Usable key) : task.Careful serde n := by
  refine ⟨fun call mode h => ?_, hattempt.trans_le (Nat.zero_le n), hpoolKey⟩
  rw [hwaits] at h
  cases h

theorem careful_recording (serde : SerdeJson) (n : ℕ) (record : RecordRequest) :
    (Task.recording record).Careful serde n := by
  refine .of_idle rfl rfl fun request hrequest => ?_
  cases hrequest

/-- A task of a call that is in the forwarder of its handler. -/
theorem Careful.of_call {serde : SerdeJson} {n : ℕ} {task : Task} {call : Call} {mode : Mode}
    {request : Forwarder.ClientRequest} (hwaits : task.waits? = some (call, mode))
    (hrequest : task.request? = some call.request)
    (hforwarded : call.route.forwarded serde call.headers call.body = some (mode, request))
    (hattempt : task.attempt ≤ n) : task.Careful serde n := by
  refine ⟨?_, hattempt, ?_⟩
  · intro call' mode' hwaits'
    obtain ⟨rfl, rfl⟩ := Prod.mk.inj (Option.some.inj (hwaits.symm.trans hwaits'))
    exact ⟨request, hforwarded⟩
  · intro request' hrequest'
    obtain rfl := Option.some.inj (hrequest.symm.trans hrequest')
    intro key hkey
    cases hkey

end Task

/-- The request whose client goes away. -/
def ServerAction.abandoned? : ServerAction → Option Request
  | .leave task => task.request?
  | .arrive _ | .advance _ _ | .recover _ => none

namespace Server

/-- What a careful step makes of its request: a response, with nothing left to do but a
record, or a task that is careful as well. -/
inductive Answers (serde : SerdeJson) (n : ℕ) (request : Request) (m : ServerMemory)
    (left : Left) : Prop where
  | goesOn (task : Task) (hleft : left.2 = {task}) (hrequest : task.request? = some request)
      (hcareful : task.Careful serde n)
  | responds (hresponds : left.1.responses.length ≠ m.responses.length)
      (hrecords : ∀ task ∈ left.2, ∃ record, task = .recording record)

section Advance

variable {crates : Crates} {outside : Outside} {m memory : ServerMemory} {n : ℕ}
  {request : Request} {call : Call} {serde : SerdeJson}

theorem answers_of_response (response : ServerResponse) (h : memory.responses = m.responses) :
    Answers serde n request m (memory.respond request response, 0) := by
  refine .responds ?_ fun task htask => absurd htask (Multiset.notMem_zero task)
  rw [ServerMemory.respond, List.length_append, h]
  exact Nat.succ_ne_self _

/-- A handler that returns leaves a response. -/
theorem answers_finish (remaining : UInt32) {handled : Handled}
    (h : memory.responses = m.responses) (hreturns : handled.result.isSome = true) :
    Answers serde n request m (finish memory request remaining handled) := by
  obtain ⟨result, hresult⟩ := Option.isSome_iff_exists.mp hreturns
  refine .responds ?_ fun task htask => ?_
  · rw [finish, hresult]
    simp only [ServerMemory.respond, List.length_append, h]
    exact Nat.succ_ne_self _
  · rw [finish_tasks] at htask
    obtain ⟨record, -, rfl⟩ := Option.map_eq_some_iff.mp
      (Option.mem_toList.mp (Multiset.mem_coe.mp htask))
    exact ⟨record, rfl⟩

/-- With a usable key, a request is sent. -/
theorem answers_send {forwarded : Forwarder.ClientRequest} {acquired : AcquiredKey}
    {next : Task} (husable : Usable acquired.key) (hrequest : next.request? = some call.request)
    (hcareful : next.Careful serde n) :
    Answers serde n call.request m (send memory call forwarded acquired next) := by
  obtain ⟨sent, hsent⟩ := Option.isSome_iff_exists.mp
    ((Forwarder.downstreamRequest_isSome_iff memory.state.config forwarded).mpr husable.clean)
  rw [send, hsent]
  exact .goesOn next rfl hrequest hcareful

variable {forwarded : Forwarder.ClientRequest}

/-- A failed attempt is tried again, or the call is over. -/
theorem answers_failed (hkeys : ∀ key ∈ m.state.keyPool.keyNames, Usable key)
    (hbackoff : ∀ attempt ≤ m.state.config.downstream.maxRetries,
      Retry.NoOverflow m.state.config.downstream.retryBaseMs attempt)
    (hforwarded : call.route.forwarded crates.serde call.headers call.body
      = some (.retried, forwarded)) (remaining : UInt32)
    (request' : Forwarder.ClientRequest) {attempt : ℕ}
    (hattempt : attempt ≤ m.state.config.downstream.maxRetries.toNat) (acquired : AcquiredKey) :
    Answers crates.serde m.state.config.downstream.maxRetries.toNat call.request m
      (failed crates outside m call remaining request' attempt acquired) := by
  have hreport : (m.state.keyPool.reportFailure outside.now acquired).2 = some () :=
    KeyPool.reportFailure_returns hkeys outside.now
  have hlast : UInt32.ofNat attempt ≤ m.state.config.downstream.maxRetries := by
    rw [UInt32.le_iff_toNat_le, UInt32.toNat_ofNat_of_lt'
      (hattempt.trans_lt (UInt32.toNat_lt _))]
    exact hattempt
  obtain ⟨delay, hdelay, -⟩ := (hbackoff _ hlast).withinQuarter outside.rng
  simp only [failed]
  generalize m.state.keyPool.reportFailure outside.now acquired = report at hreport ⊢
  obtain ⟨keyPool, returned⟩ := report
  obtain rfl : returned = some () := hreport
  simp only [hdelay]
  split
  · exact .goesOn _ rfl rfl (.of_call rfl rfl hforwarded (by assumption))
  · exact answers_finish remaining rfl (call.isSome_handled outside.elapsed
      (.whole (.error (Retry.lastError outside.outcome))) hforwarded)

/-- A check answers a call itself, or the call goes on to its forwarder. -/
theorem answers_limiting (call : Call) :
    Answers crates.serde n call.request m (limiting crates outside m call) := by
  unfold limiting
  generalize RateLimit.rateLimit outside.now m.state.rateLimiter (some call.clientKey)
    = checked
  rcases checked with ⟨rateLimiter, response | remaining⟩
  · exact answers_of_response _ rfl
  · simp only
    split
    · rename_i hforwarded
      exact answers_finish remaining rfl (Call.isSome_handled_none _ hforwarded)
    · rename_i hforwarded
      exact .goesOn _ rfl rfl (.of_call rfl rfl hforwarded (Nat.zero_le _))
    · rename_i hforwarded
      exact .goesOn _ rfl rfl (.of_call rfl rfl hforwarded (Nat.zero_le _))

section Keys

variable (hkeys : ∀ key ∈ m.state.keyPool.keyNames, Usable key)
include hkeys

/-- An attempt ends without a key, or its request is sent. -/
theorem answers_retrying (hforwarded : call.route.forwarded crates.serde call.headers call.body
      = some (.retried, forwarded)) (remaining : UInt32)
    (request' : Forwarder.ClientRequest) {attempt : ℕ} (hattempt : attempt ≤ n) :
    Answers crates.serde n call.request m
      (retrying crates outside m call remaining request' attempt) := by
  unfold retrying
  cases hacquire : m.state.keyPool.acquireKey with
  | mk keyPool result =>
      cases result with
      | error e =>
          exact answers_finish remaining rfl
            (call.isSome_handled _ (.whole (.error e)) hforwarded)
      | ok acquired =>
          have husable := hkeys _ (KeyPool.mem_keyNames_of_acquireKey hacquire)
          exact answers_send husable rfl (.of_call rfl rfl hforwarded hattempt)

/-- An answer is read, or the attempt has failed. -/
theorem answers_retried (hbackoff : ∀ attempt ≤ m.state.config.downstream.maxRetries,
      Retry.NoOverflow m.state.config.downstream.retryBaseMs attempt)
    (hforwarded : call.route.forwarded crates.serde call.headers call.body
      = some (.retried, forwarded)) (remaining : UInt32)
    (request' : Forwarder.ClientRequest) {attempt : ℕ}
    (hattempt : attempt ≤ m.state.config.downstream.maxRetries.toNat) (acquired : AcquiredKey) :
    Answers crates.serde m.state.config.downstream.maxRetries.toNat call.request m
      (retried crates outside m call remaining request' attempt acquired) := by
  have hfailed : Answers crates.serde _ call.request m
      (failed crates outside m call remaining request' attempt acquired) :=
    answers_failed hkeys hbackoff hforwarded remaining request' hattempt acquired
  unfold retried
  split
  · split
    · exact hfailed
    · exact .goesOn _ rfl rfl (.of_call rfl rfl hforwarded (Nat.zero_le _))
  · exact hfailed

/-- The one attempt of a stream ends without a key, or its request is sent. -/
theorem answers_streaming
    (hforwarded : call.route.forwarded crates.serde call.headers call.body
      = some (.streamed, forwarded)) (remaining : UInt32)
    (request' : Forwarder.ClientRequest) :
    Answers crates.serde n call.request m
      (streaming crates outside m call remaining request') := by
  unfold streaming
  cases hacquire : m.state.keyPool.acquireKey with
  | mk keyPool result =>
      cases result with
      | error e =>
          exact answers_finish remaining rfl
            (call.isSome_handled _ (.stream (.error e)) hforwarded)
      | ok acquired =>
          have husable := hkeys _ (KeyPool.mem_keyNames_of_acquireKey hacquire)
          exact answers_send husable rfl (.of_call rfl rfl hforwarded (Nat.zero_le _))

/-- A stream is handed on, or its error is read. -/
theorem answers_streamed
    (hforwarded : call.route.forwarded crates.serde call.headers call.body
      = some (.streamed, forwarded)) (remaining : UInt32) (acquired : AcquiredKey) :
    Answers crates.serde n call.request m
      (streamed crates outside m call remaining acquired) := by
  have hreport : (m.state.keyPool.reportFailure outside.now acquired).2 = some () :=
    KeyPool.reportFailure_returns hkeys outside.now
  unfold streamed
  split
  · exact answers_finish remaining rfl (call.isSome_handled _ (.stream _) hforwarded)
  · split
    · generalize m.state.keyPool.reportFailure outside.now acquired = report at hreport ⊢
      obtain ⟨keyPool, returned⟩ := report
      obtain rfl : returned = some () := hreport
      exact .goesOn _ rfl rfl (.of_call rfl rfl hforwarded (Nat.zero_le _))
    · exact answers_finish remaining rfl (call.isSome_handled _ (.stream _) hforwarded)

/-- Keys that can be used can be listed. -/
theorem answers_querying (headers : HeaderMap) (query : AdminQuery) :
    Answers serde n (.query headers query) m (querying crates outside m headers query) := by
  have hlists : ∃ stats, m.state.keyPool.keyStats = some stats :=
    KeyPool.keyStats_isSome_iff.mpr fun k hk =>
      (hkeys k.val.key (List.mem_map_of_mem hk)).sliceable
  obtain ⟨stats, hstats⟩ := hlists
  obtain ⟨result, hresult⟩ : ∃ result, query.handle outside.replies crates.date m.state m.logs
      = some result := by
    cases query <;> simp [AdminQuery.handle, hstats]
  rw [querying, hresult]
  exact answers_of_response _ rfl

end Keys

/-- A statement that fails is answered, any other one is followed by the update. -/
theorem answers_changing (headers : HeaderMap) (made : AdminChange)
    (hcareful : (Task.changing headers made).Careful serde n) :
    Answers serde n (.change headers made) m (changing outside m headers made) := by
  rw [changing]
  rcases made.statement outside.reply m.state.db with ⟨db, e | -⟩
  · exact answers_of_response _ rfl
  · exact .goesOn _ rfl rfl (.of_idle rfl rfl hcareful.poolKey)

/-- **What a careful task makes of its request.** -/
theorem answers_advance (hkeys : ∀ key ∈ m.state.keyPool.keyNames, Usable key)
    (hbackoff : ∀ attempt ≤ m.state.config.downstream.maxRetries,
      Retry.NoOverflow m.state.config.downstream.retryBaseMs attempt) {task : Task}
    (hcareful : task.Careful crates.serde m.state.config.downstream.maxRetries.toNat)
    (hrequest : task.request? = some request) :
    Answers crates.serde m.state.config.downstream.maxRetries.toNat request m
      (advance crates outside m task) := by
  cases task with
  | limiting call =>
      obtain rfl := Option.some.inj hrequest
      exact answers_limiting call
  | retrying call remaining request' attempt =>
      obtain rfl := Option.some.inj hrequest
      obtain ⟨forwarded, hforwarded⟩ := hcareful.forwards _ _ rfl
      exact answers_retrying hkeys hforwarded remaining request' hcareful.attempt
  | retried call remaining request' attempt acquired =>
      obtain rfl := Option.some.inj hrequest
      obtain ⟨forwarded, hforwarded⟩ := hcareful.forwards _ _ rfl
      exact answers_retried hkeys hbackoff hforwarded remaining request' hcareful.attempt
        acquired
  | streaming call remaining request' =>
      obtain rfl := Option.some.inj hrequest
      obtain ⟨forwarded, hforwarded⟩ := hcareful.forwards _ _ rfl
      exact answers_streaming hkeys hforwarded remaining request'
  | streamed call remaining acquired =>
      obtain rfl := Option.some.inj hrequest
      obtain ⟨forwarded, hforwarded⟩ := hcareful.forwards _ _ rfl
      exact answers_streamed hkeys hforwarded remaining acquired
  | reading call remaining returned =>
      obtain rfl := Option.some.inj hrequest
      obtain ⟨forwarded, hforwarded⟩ := hcareful.forwards _ _ rfl
      exact answers_finish remaining rfl (call.isSome_handled _ returned hforwarded)
  | recording record => cases hrequest
  | changing headers made =>
      obtain rfl := Option.some.inj hrequest
      exact answers_changing headers made hcareful
  | updating headers made =>
      obtain rfl := Option.some.inj hrequest
      exact answers_of_response _ rfl
  | querying headers query =>
      obtain rfl := Option.some.inj hrequest
      exact answers_querying hkeys headers query

end Advance

/-! ## Runs -/

/-- The pool has usable keys, no backoff overflows, and all tasks are careful. -/
structure Careful (crates : Crates) (s : Server) : Prop where
  keys : ∀ key ∈ s.memory.state.keyPool.keyNames, Usable key
  backoff : ∀ attempt ≤ s.memory.state.config.downstream.maxRetries,
    Retry.NoOverflow s.memory.state.config.downstream.retryBaseMs attempt
  tasks : ∀ task ∈ s.threads,
    task.Careful crates.serde s.memory.state.config.downstream.maxRetries.toNat

section Runs

variable {crates : Crates} {s s' t : Server} {a : ServerAction} {ops : List ServerAction}
  {outside : Outside} {m : ServerMemory} {task : Task} {request : Request}

theorem keyNames_serves {check : Option RateLimiter.Check} {state state' : AppState}
    (h : Serves state check state') : state'.keyPool.keyNames = state.keyPool.keyNames := by
  cases h with
  | same => rfl
  | checked c => rfl
  | acquired => exact state.keyPool.keyNames_acquireKey
  | succeeded acquired => exact state.keyPool.keyNames_reportSuccess acquired
  | failed now acquired => exact state.keyPool.keyNames_reportFailure now acquired

/-- A change gives the pool no key but its own. -/
theorem keyNames_update {state : AppState} {made : AdminChange} {key : String}
    (h : key ∈ (made.update state).keyPool.keyNames) :
    made.poolKey? = some key ∨ key ∈ state.keyPool.keyNames := by
  rcases made with request | payload | ⟨key', weight⟩ | key'
  · exact Or.inr h
  · exact (KeyPool.mem_keyNames_addKey.mp h).imp_left fun heq => congrArg some heq.symm
  · exact (KeyPool.mem_keyNames_addKey.mp h).imp_left fun heq => congrArg some heq.symm
  · exact Or.inr (KeyPool.keyNames_removeKey_subset h)

/-- A step gives the pool no key but the one of its request. -/
theorem keyNames_advance {key : String}
    (h : key ∈ (advance crates outside m task).1.state.keyPool.keyNames) :
    (∃ request, task.request? = some request ∧ request.poolKey? = some key) ∨
      key ∈ m.state.keyPool.keyNames := by
  cases hcall : task.call? with
  | some call =>
      rw [keyNames_serves (callStep_advance crates outside m hcall).serves] at h
      exact Or.inr h
  | none =>
      have hidle := idleStep_advance crates outside m hcall
      generalize advance crates outside m task = left at hidle h
      cases hidle with
      | records record => exact Or.inr h
      | fails headers made db response => exact Or.inr h
      | changes headers made db => exact Or.inr h
      | updates headers made =>
          exact (keyNames_update h).imp_left fun hkey => ⟨_, rfl, hkey⟩
      | panics headers query => exact Or.inr h
      | replies headers query result => exact Or.inr h

/-- A task that a request starts is careful, if its key is usable. -/
theorem careful_arriving {serde : SerdeJson} {n : ℕ}
    (husable : ∀ key, request.poolKey? = some key → Usable key)
    (h : task ∈ (arriving m request).2) : task.Careful serde n := by
  cases request with
  | proxy route headers body =>
      rw [arriving] at h
      split at h
      · cases h
      · obtain rfl := Multiset.mem_singleton.mp h
        refine .of_idle rfl rfl fun request hrequest key hkey => ?_
        obtain rfl := Option.some.inj hrequest
        cases hkey
  | change headers made =>
      rw [arriving] at h
      split at h
      · cases h
      · obtain rfl := Multiset.mem_singleton.mp h
        refine .of_idle rfl rfl fun request hrequest => ?_
        obtain rfl := Option.some.inj hrequest
        exact husable
  | query headers query =>
      rw [arriving] at h
      split at h
      · cases h
      · obtain rfl := Multiset.mem_singleton.mp h
        refine .of_idle rfl rfl fun request hrequest key hkey => ?_
        obtain rfl := Option.some.inj hrequest
        cases hkey
  | health => cases h

/-- **A step keeps the tasks careful.** -/
theorem Careful.step (hcareful : Careful crates s)
    (husable : ∀ request, a.request? = some request →
      ∀ key, request.poolKey? = some key → Usable key)
    (h : s.step crates a = some s') : Careful crates s' := by
  have hconfig : s'.memory.state.config = s.memory.state.config := config_step h
  refine ⟨?_, hconfig ▸ hcareful.backoff, ?_⟩
  · intro key hkey
    cases a with
    | arrive request =>
        rw [step_arrive.mp h] at hkey
        rw [arriving_state] at hkey
        exact hcareful.keys key hkey
    | advance task outside =>
        obtain ⟨others, hthreads, rfl⟩ := step_advance.mp h
        have hmem : task ∈ s.threads := hthreads ▸ Multiset.mem_cons_self task others
        rcases keyNames_advance hkey with ⟨request, hrequest, hpool⟩ | hkey
        · exact (hcareful.tasks task hmem).poolKey request hrequest key hpool
        · exact hcareful.keys key hkey
    | leave task =>
        obtain ⟨others, hthreads, -, rfl⟩ := step_leave.mp h
        exact hcareful.keys key hkey
    | recover recovery =>
        obtain ⟨-, rfl⟩ := step_recover.mp h
        have hkept := s.memory.state.keyPool.keyNames_recover recovery
        exact hcareful.keys key (hkept ▸ hkey)
  · intro task' htask'
    rw [hconfig]
    cases a with
    | arrive request =>
        rw [step_arrive.mp h] at htask'
        rcases Multiset.mem_add.mp htask' with htask' | htask'
        · exact careful_arriving (husable request rfl) htask'
        · exact hcareful.tasks task' htask'
    | advance task outside =>
        obtain ⟨others, hthreads, rfl⟩ := step_advance.mp h
        have hmem : task ∈ s.threads := hthreads ▸ Multiset.mem_cons_self task others
        rcases Multiset.mem_add.mp htask' with htask' | htask'
        · cases hrequest : task.request? with
          | some request =>
              have hanswers : Answers crates.serde _ request s.memory
                  (advance crates outside s.memory task) :=
                answers_advance hcareful.keys hcareful.backoff (hcareful.tasks task hmem)
                  hrequest
              cases hanswers with
              | goesOn next hleft hnext hnextCareful =>
                  rw [hleft] at htask'
                  rwa [Multiset.mem_singleton.mp htask']
              | responds hresponds hrecords =>
                  obtain ⟨record, rfl⟩ := hrecords task' htask'
                  exact Task.careful_recording _ _ record
          | none =>
              obtain ⟨record, rfl⟩ := exists_record hrequest
              exact absurd htask' (Multiset.notMem_zero task')
        · exact hcareful.tasks task' (hthreads ▸ Multiset.mem_cons_of_mem htask')
    | leave task =>
        obtain ⟨others, hthreads, -, rfl⟩ := step_leave.mp h
        exact hcareful.tasks task' (hthreads ▸ Multiset.mem_cons_of_mem htask')
    | recover recovery =>
        obtain ⟨-, rfl⟩ := step_recover.mp h
        exact hcareful.tasks task' htask'

/-- **A careful step drops no request, unless a client goes away.** -/
theorem dropped_of_careful (hcareful : Careful crates s) (h : s.step crates a = some s') :
    dropped crates s a = ↑a.abandoned?.toList := by
  cases a with
  | arrive request => rfl
  | advance task outside =>
      obtain ⟨others, hthreads, rfl⟩ := step_advance.mp h
      have hmem : task ∈ s.threads := hthreads ▸ Multiset.mem_cons_self task others
      rw [dropped]
      cases hrequest : task.request? with
      | some request =>
          have hanswers : Answers crates.serde _ request s.memory
              (advance crates outside s.memory task) :=
            answers_advance hcareful.keys hcareful.backoff (hcareful.tasks task hmem) hrequest
          refine if_neg fun hdropped => ?_
          cases hanswers with
          | goesOn next hleft hnext hnextCareful =>
              rw [hleft, unanswered_singleton hnext] at hdropped
              exact Multiset.singleton_ne_zero request hdropped.2
          | responds hresponds hrecords => exact hresponds hdropped.1
      | none =>
          rw [unanswered_of_none hrequest]
          exact ite_self _
  | leave task =>
      cases hrequest : task.request? with
      | some request => simp [dropped, ServerAction.abandoned?, hrequest, unanswered_singleton]
      | none => simp [dropped, ServerAction.abandoned?, hrequest, unanswered_of_none]
  | recover recovery => rfl

/-- A careful run drops the requests whose clients go away. -/
theorem credits_dropped (hcareful : Careful crates s)
    (husable : ∀ request, .arrive request ∈ ops →
      ∀ key, request.poolKey? = some key → Usable key)
    (hrun : Runs.run (step crates) s ops = some t) :
    Runs.credits (step crates) (dropped crates) s ops
      = ↑(ops.filterMap ServerAction.abandoned?) := by
  induction ops generalizing s with
  | nil => rfl
  | cons a ops ih =>
      obtain ⟨s', hstep, hrest⟩ := Runs.run_cons_eq_some.mp hrun
      have hnext : Careful crates s' := by
        refine hcareful.step (fun request hrequest => ?_) hstep
        cases a with
        | arrive request' =>
            obtain rfl := Option.some.inj hrequest
            exact husable _ List.mem_cons_self
        | advance task outside => cases hrequest
        | leave task => cases hrequest
        | recover recovery => cases hrequest
      rw [Runs.credits_cons_of_some ops hstep, dropped_of_careful hcareful hstep,
        ih hnext (fun request hmem => husable request (List.mem_cons_of_mem a hmem)) hrest]
      cases hleft : a.abandoned? <;> simp [hleft]

/-- **Every request is answered**, or has a task that is to answer it, unless its client
goes away: as long as the pool gets usable keys only, and the backoff of the config does
not overflow. -/
theorem answered_unless_abandoned {state : AppState} {logs : RequestLogs}
    (hkeys : ∀ key ∈ state.keyPool.keyNames, Usable key)
    (hbackoff : ∀ attempt ≤ state.config.downstream.maxRetries,
      Retry.NoOverflow state.config.downstream.retryBaseMs attempt)
    (husable : ∀ request, .arrive request ∈ ops →
      ∀ key, request.poolKey? = some key → Usable key)
    (hrun : Runs.run (step crates) (start state logs) ops = some t) :
    responded t.memory + unanswered t.threads + ↑(ops.filterMap ServerAction.abandoned?)
      = ↑(ops.filterMap ServerAction.request?) := by
  have hcareful : Careful crates (start state logs) :=
    ⟨hkeys, hbackoff, fun task htask => absurd htask (Multiset.notMem_zero task)⟩
  rw [← credits_dropped hcareful husable hrun]
  exact (responded_of_run hrun).trans (zero_add _)

/-- A key is added, and a chat completion abandoned. -/
def changedAndAbandoned : List ServerAction :=
  .arrive (.change [] (.updateDownstreamKey "tp-2" 1)) :: abandonedChat

theorem usable_of_short {key : String} (hshort : key.utf8ByteSize ≤ 8)
    (hclean : HeaderValue.Clean key) : Usable key :=
  ⟨fun hlong => absurd hlong (not_lt.mpr hshort), hclean⟩

theorem answered_unless_abandoned_chat :
    ∃ t, Runs.run (step .small) (start Serving.started .empty) changedAndAbandoned = some t ∧
      responded t.memory + unanswered t.threads + {chat.request}
        = {.change [] (.updateDownstreamKey "tp-2" 1), chat.request, .health} := by
  have hsome : (Runs.run (step .small) (start Serving.started .empty)
      changedAndAbandoned).isSome = true := by decide +kernel
  obtain ⟨t, hrun⟩ := Option.isSome_iff_exists.mp hsome
  refine ⟨t, hrun, answered_unless_abandoned ?_ ?_ ?_ hrun⟩
  · intro key hkey
    obtain rfl : key = "tp-1" := List.mem_singleton.mp hkey
    exact usable_of_short (by decide) (HeaderValue.ofStr_isSome_iff.mp (by decide))
  · intro attempt hle
    exact Retry.NoOverflow.of_le (by decide) (by decide) hle
  · intro request hmem key hkey
    have hcases : request = .change [] (.updateDownstreamKey "tp-2" 1) ∨
        request = chat.request ∨ request = .health := by
      simpa [changedAndAbandoned, abandonedChat] using hmem
    rcases hcases with rfl | rfl | rfl
    · obtain rfl := Option.some.inj hkey
      exact usable_of_short (by decide) (HeaderValue.ofStr_isSome_iff.mp (by decide))
    · cases hkey
    · cases hkey

end Runs

end Server

end XiaomiProxy
