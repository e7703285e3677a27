import XiaomiProxy.Handlers.Accounting
import XiaomiProxy.Handlers.Responses
import XiaomiProxy.Lib.Threads

/-!
# The server

All of the program at work: any number of requests of all kinds, each a task of its own,
the tasks that record what was answered, and the recovery tasks of the pool.  Between two
steps of one task, any others may be taken.

A step is what a task does from one moment at which others can see its doing to the next:
a lookup, a check, a statement, an operation on the pool.  What the outside makes of the
step comes with it (`Outside`).

* `arriving` — a request arrives: the authentication of its route.
* `advance` — a task takes its next step.
* A client that goes away takes its task along, if the task awaits something.

`ServerMemory.sent` and `ServerMemory.responses` are what left the program: no step
looks at them.  What is sent is counted by the calls of `send`; the redirects that a send
follows are no sends.
-/

namespace XiaomiProxy

deriving instance DecidableEq for Forwarder.ClientRequest, ClientResponse

/-- What the program calls of `serde_json`, and the `date` function of its database. -/
structure Crates where
  serde : SerdeJson
  date : String → Option String

/-- What the outside makes of one step: the clock, the answer of the provider, the random
generator, the duration of a call, the reply to a statement and the id that is drawn for
it, and the replies to queries. -/
structure Outside where
  now : Instant
  outcome : Outcome
  rng : Retry.GenRange
  elapsed : Duration
  reply : Db.Reply
  id : String
  replies : AdminQuery.Replies

/-- Two bodies are told apart, and dates are the first part of a timestamp. -/
def Crates.small : Crates where
  serde := Serving.serde
  date timestamp := some (String.ofList (timestamp.toList.take 10))

/-- Everything succeeds, in five milliseconds. -/
def Outside.smooth : Outside where
  now := 0
  outcome := .ok (Response.ofStatus .OK)
  rng := .lowest
  elapsed := 5000000
  reply := .ok "now"
  id := "id-1"
  replies :=
    { reading := .toFirstNul
      usage := .ok Db.tableOrder
      logs := .ok (Db.newestFirst _)
      clientKeys := .ok (Db.newestFirst _) }

/-- A request to a proxy route, and the client key it was let through with. -/
structure Call where
  route : ProxyRoute
  headers : HeaderMap
  body : Json
  clientKey : ClientKey
  shown : Auth.extractKey headers = some clientKey.key
  deriving DecidableEq

/-- What a forwarder returns to a handler. -/
inductive Returned where
  | whole (result : Except AppError (Bytes × StatusCode × HeaderMap))
  | stream (result : Except AppError ClientResponse)
  deriving DecidableEq

namespace Returned

def whole? : Returned → Option (Except AppError (Bytes × StatusCode × HeaderMap))
  | .whole result => some result
  | .stream _ => none

def stream? : Returned → Option (Except AppError ClientResponse)
  | .whole _ => none
  | .stream result => some result

end Returned

namespace Call

def request (call : Call) : Request := .proxy call.route call.headers call.body

/-- The handler of a call whose forwarder returned; it did not get there if there is
nothing that was returned. -/
def handled (crates : Crates) (elapsed : Duration) (call : Call)
    (returned : Option Returned) : Handled :=
  call.route.handle
    { serde := crates.serde
      forwardRequest := fun _ => returned.bind Returned.whole?
      forwardStreaming := fun _ => returned.bind Returned.stream?
      elapsed }
    call.clientKey call.headers call.body

end Call

/-- A task, by what it does next. -/
inductive Task where
  | limiting (call : Call)
  | retrying (call : Call) (remaining : UInt32) (request : Forwarder.ClientRequest)
      (attempt : ℕ)
  | retried (call : Call) (remaining : UInt32) (request : Forwarder.ClientRequest)
      (attempt : ℕ) (acquired : AcquiredKey)
  | streaming (call : Call) (remaining : UInt32) (request : Forwarder.ClientRequest)
  | streamed (call : Call) (remaining : UInt32) (acquired : AcquiredKey)
  | reading (call : Call) (remaining : UInt32) (returned : Returned)
  | recording (record : RecordRequest)
  | changing (headers : HeaderMap) (change : AdminChange)
  | updating (headers : HeaderMap) (change : AdminChange)
  | querying (headers : HeaderMap) (query : AdminQuery)
  deriving DecidableEq

/-- A task that its client can take along: it awaits something, and was not spawned. -/
def Task.awaits : Task → Bool
  | .limiting _ | .recording _ => false
  -- the body is read before the first attempt, by the routes that take one; the later ones
  -- are slept for
  | .retrying call _ _ attempt => attempt ≠ 0 ∨ call.route ≠ .listModels
  | .streaming call _ _ => call.route ≠ .listModels
  | .retried _ _ _ _ _ | .streamed _ _ _ | .reading _ _ _ => true
  | .changing _ _ | .updating _ _ | .querying _ _ => true

/-- The call a task is part of. -/
def Task.call? : Task → Option Call
  | .limiting call => some call
  | .retrying call _ _ _ | .retried call _ _ _ _ => some call
  | .streaming call _ _ | .streamed call _ _ => some call
  | .reading call _ _ => some call
  | .recording _ | .changing _ _ | .updating _ _ | .querying _ _ => none

/-- The check a task is about to make. -/
def Task.check? (now : Instant) : Task → Option RateLimiter.Check
  | .limiting call => some { now, key := call.clientKey.key }
  | .retrying _ _ _ _ | .retried _ _ _ _ _ | .streaming _ _ _ | .streamed _ _ _ => none
  | .reading _ _ _ | .recording _ | .changing _ _ | .updating _ _ | .querying _ _ => none

/-- A task that has no check ahead of it. -/
def Task.checked : Task → Bool
  | .limiting _ => false
  | .retrying _ _ _ _ | .retried _ _ _ _ _ | .streaming _ _ _ | .streamed _ _ _ => true
  | .reading _ _ _ | .recording _ | .changing _ _ | .updating _ _ | .querying _ _ => true

/-- The requests that a task may still send, when a call makes `n` retries. -/
def Task.work (n : ℕ) : Task → ℕ
  | .limiting _ => n + 1
  | .retrying _ _ _ attempt => n - attempt + 1
  | .retried _ _ _ attempt _ => n - attempt
  | .streaming _ _ _ => 1
  | .streamed _ _ _ | .reading _ _ _ | .recording _ => 0
  | .changing _ _ | .updating _ _ | .querying _ _ => 0

/-- A response, and the request it answers. -/
structure Served where
  request : Request
  response : ServerResponse

structure ServerMemory where
  state : AppState
  logs : RequestLogs
  sent : List (ClientKey × DownstreamRequest)
  responses : List Served

namespace ServerMemory

variable (m : ServerMemory)

def setDb (db : Db) : ServerMemory := { m with state := { m.state with db } }

def setPool (keyPool : KeyPool) : ServerMemory :=
  { m with state := { m.state with keyPool } }

def setLimiter (rateLimiter : RateLimiter) : ServerMemory :=
  { m with state := { m.state with rateLimiter } }

def respond (request : Request) (response : ServerResponse) : ServerMemory :=
  { m with responses := m.responses ++ [{ request, response }] }

def issue (clientKey : ClientKey) (sent : DownstreamRequest) : ServerMemory :=
  { m with sent := m.sent ++ [(clientKey, sent)] }

end ServerMemory

/-- The program between two steps. -/
abbrev Server := Threads ServerMemory Task

namespace Server

/-- What a step leaves: the memory, and what becomes of the task. -/
abbrev Left := ServerMemory × Multiset Task

/-- A handler that is over: its response, unless it panicked, and the record it gave to a
task. -/
def finish (m : ServerMemory) (request : Request) (remaining : UInt32) (handled : Handled) :
    Left :=
  (match handled.result with
    | none => m
    | some result =>
        m.respond request ((ServerResponse.ofReply result).withRemaining remaining),
   match handled.spawned with
    | none => 0
    | some record => {.recording record})

/-- A request with the key that was acquired for it. -/
def send (m : ServerMemory) (call : Call) (request : Forwarder.ClientRequest)
    (acquired : AcquiredKey) (next : Task) : Left :=
  match Forwarder.downstreamRequest m.state.config request acquired.key with
  | none => (m, 0)
  | some sent => (m.issue call.clientKey sent, {next})

/-- The two arms of a failed attempt. -/
def failed (crates : Crates) (outside : Outside) (m : ServerMemory) (call : Call)
    (remaining : UInt32) (request : Forwarder.ClientRequest) (attempt : ℕ)
    (acquired : AcquiredKey) : Left :=
  let downstream := m.state.config.downstream
  match m.state.keyPool.reportFailure outside.now acquired with
  | (keyPool, none) => (m.setPool keyPool, 0)
  | (keyPool, some ()) =>
      match Retry.calculateDelay outside.rng downstream.retryBaseMs (UInt32.ofNat attempt) with
      | none => (m.setPool keyPool, 0)
      | some _ =>
          if attempt < downstream.maxRetries.toNat then
            (m.setPool keyPool, {.retrying call remaining request (attempt + 1)})
          else
            finish (m.setPool keyPool) call.request remaining (call.handled crates outside.elapsed
              (some (.whole (.error (Retry.lastError outside.outcome)))))

section Tasks

variable (crates : Crates) (outside : Outside) (m : ServerMemory)

/-- `rate_limit`, and the handler up to its forwarder. -/
def limiting (call : Call) : Left :=
  match RateLimit.rateLimit outside.now m.state.rateLimiter (some call.clientKey) with
  | (rateLimiter, .error response) =>
      ((m.setLimiter rateLimiter).respond call.request (.json response), 0)
  | (rateLimiter, .ok remaining) =>
      let m := m.setLimiter rateLimiter
      match call.route.forwarded crates.serde call.headers call.body with
      | none => finish m call.request remaining (call.handled crates outside.elapsed none)
      | some (.retried, request) => (m, {.retrying call remaining request 0})
      | some (.streamed, request) => (m, {.streaming call remaining request})

/-- An attempt of `with_retry`, up to its request. -/
def retrying (call : Call) (remaining : UInt32) (request : Forwarder.ClientRequest)
    (attempt : ℕ) : Left :=
  match m.state.keyPool.acquireKey with
  | (keyPool, .error e) => finish (m.setPool keyPool) call.request remaining
      (call.handled crates outside.elapsed (some (.whole (.error e))))
  | (keyPool, .ok acquired) => send (m.setPool keyPool) call request acquired
      (.retried call remaining request attempt acquired)

/-- An attempt of `with_retry`, from the answer to its request on. -/
def retried (call : Call) (remaining : UInt32) (request : Forwarder.ClientRequest)
    (attempt : ℕ) (acquired : AcquiredKey) : Left :=
  match outside.outcome with
  | .ok resp =>
      if !resp.status.isSuccess && Retry.isRetryable resp.status then
        failed crates outside m call remaining request attempt acquired
      else
        -- the body is read after the report
        (m.setPool (m.state.keyPool.reportSuccess acquired), {.reading call remaining
          (.whole (match resp.bytes with
            | .error e => .error (AppError.ofReqwest e)
            | .ok respBody => .ok (respBody, resp.status, resp.headers)))})
  | .error _ => failed crates outside m call remaining request attempt acquired

/-- `forward_streaming`, up to its request. -/
def streaming (call : Call) (remaining : UInt32) (request : Forwarder.ClientRequest) : Left :=
  match m.state.keyPool.acquireKey with
  | (keyPool, .error e) => finish (m.setPool keyPool) call.request remaining
      (call.handled crates outside.elapsed (some (.stream (.error e))))
  | (keyPool, .ok acquired) => send (m.setPool keyPool) call request acquired
      (.streamed call remaining acquired)

/-- `forward_streaming`, from the answer to its request on. -/
def streamed (call : Call) (remaining : UInt32) (acquired : AcquiredKey) : Left :=
  match outside.outcome with
  | .error e => finish m call.request remaining (call.handled crates outside.elapsed
      (some (.stream (.error (AppError.ofReqwest e)))))
  | .ok resp =>
      if !resp.status.isSuccess then
        match m.state.keyPool.reportFailure outside.now acquired with
        | (keyPool, none) => (m.setPool keyPool, 0)
        | (keyPool, some ()) =>
            let errBody := match resp.text with
              | .ok text => text
              | .error _ => ""
            (m.setPool keyPool, {.reading call remaining (.stream (.error (.downstream
              ("HTTP " ++ toString resp.status.asU16.toNat ++ ": " ++ errBody))))})
      else
        finish (m.setPool (m.state.keyPool.reportSuccess acquired)) call.request remaining
          (call.handled crates outside.elapsed (some (.stream (.ok
            { status := resp.status
              headers := resp.headers
              body := resp.bytes }))))

/-- A handler whose forwarder has read the answer. -/
def reading (call : Call) (remaining : UInt32) (returned : Returned) : Left :=
  finish m call.request remaining (call.handled crates outside.elapsed (some returned))

/-- The task a handler spawned.  What becomes of its statement is ignored. -/
def recording (record : RecordRequest) : Left :=
  ({ m with logs := (Db.recordRequest outside.reply outside.id m.logs record).1 }, 0)

/-- The statement of a change. -/
def changing (headers : HeaderMap) (change : AdminChange) : Left :=
  match change.statement outside.reply m.state.db with
  | (db, .error e) => ((m.setDb db).respond (.change headers change)
      (.json (AppError.ofString e).intoResponse), 0)
  | (db, .ok ()) => (m.setDb db, {.updating headers change})

/-- The update of a change. -/
def updating (headers : HeaderMap) (change : AdminChange) : Left :=
  (ServerMemory.respond { m with state := change.update m.state }
    (.change headers change) (.admin change.reply), 0)

def querying (headers : HeaderMap) (query : AdminQuery) : Left :=
  match query.handle outside.replies crates.date m.state m.logs with
  | none => (m, 0)
  | some result => (m.respond (.query headers query) (.ofAdminReply result), 0)

/-- The next step of a task. -/
def advance : Task → Left
  | .limiting call => limiting crates outside m call
  | .retrying call remaining request attempt =>
      retrying crates outside m call remaining request attempt
  | .retried call remaining request attempt acquired =>
      retried crates outside m call remaining request attempt acquired
  | .streaming call remaining request => streaming crates outside m call remaining request
  | .streamed call remaining acquired => streamed crates outside m call remaining acquired
  | .reading call remaining returned => reading crates outside m call remaining returned
  | .recording record => recording outside m record
  | .changing headers change => changing outside m headers change
  | .updating headers change => updating m headers change
  | .querying headers query => querying crates outside m headers query

end Tasks

/-- A request arrives. -/
def arriving (m : ServerMemory) : Request → Left
  | .proxy route headers body =>
      match h : Auth.auth m.state.clientKeys headers with
      | .error e => (m.respond (.proxy route headers body) (.json e.intoResponse), 0)
      | .ok clientKey => (m, {.limiting
          { route, headers, body, clientKey, shown := Auth.extractKey_of_auth h }})
  | .change headers change =>
      match BasicAuth.basicAuth m.state.config.admin headers with
      | .error response => (m.respond (.change headers change) (.text response), 0)
      | .ok () => (m, {.changing headers change})
  | .query headers query =>
      match BasicAuth.basicAuth m.state.config.admin headers with
      | .error response => (m.respond (.query headers query) (.text response), 0)
      | .ok () => (m, {.querying headers query})
  | .health => (m.respond .health (.empty .OK), 0)

end Server

inductive ServerAction where
  | arrive (request : Request)
  | advance (task : Task) (outside : Outside)
  | leave (task : Task)
  | recover (task : RecoveryTask)

namespace Server

/-- One step.  A recovery task fires once. -/
def step (crates : Crates) (s : Server) : ServerAction → Option Server
  | .arrive request =>
      let (memory, tasks) := arriving s.memory request
      some { memory, threads := tasks + s.threads }
  | .advance task outside =>
      Threads.step (fun _ => false) (fun m task => some (advance crates outside m task)) s
        (.advance task)
  | .leave task =>
      if task ∈ s.threads ∧ task.awaits = true then
        some { s with threads := s.threads.erase task }
      else none
  | .recover task =>
      if task ∈ s.memory.state.keyPool.tasks then
        some { s with memory := s.memory.setPool (s.memory.state.keyPool.recover task) }
      else none

/-- A program at its start. -/
def start (state : AppState) (logs : RequestLogs) : Server where
  memory := { state, logs, sent := [], responses := [] }
  threads := 0

/-- A chat completion of the client `sk-1`. -/
def chat : Call where
  route := .model .chatCompletions
  headers := [("x-api-key", HeaderValue.ofText "sk-1")]
  body := Serving.asking "mimo-v2"
  clientKey := ⟨"sk-1"⟩
  shown := by decide +kernel

/-- What is forwarded of it. -/
def chatRequest : Forwarder.ClientRequest where
  protocol := .openAI
  path := "/chat/completions"
  headers := chat.headers
  body := HeaderValue.ofText "\x7b\"model\":\"mimo-v2\"\x7d"

section Step

variable {crates : Crates} {s s' : Server} {task : Task} {outside : Outside}

theorem step_arrive {request : Request} : s.step crates (.arrive request) = some s' ↔
    s' = ⟨(arriving s.memory request).1, (arriving s.memory request).2 + s.threads⟩ := by
  rw [step, Option.some.injEq, eq_comm]

/-- A task that advances is one of those under way; the others stay as they are. -/
theorem step_advance : s.step crates (.advance task outside) = some s' ↔
    ∃ others, s.threads = task ::ₘ others ∧
      s' = ⟨(advance crates outside s.memory task).1,
        (advance crates outside s.memory task).2 + others⟩ := by
  rw [step, Threads.step_advance]
  constructor
  · rintro ⟨others, memory, left, hthreads, hadvance, rfl⟩
    refine ⟨others, hthreads, ?_⟩
    rw [Option.some.inj hadvance]
  · rintro ⟨others, hthreads, rfl⟩
    exact ⟨others, _, _, hthreads, rfl, rfl⟩

theorem step_leave : s.step crates (.leave task) = some s' ↔
    ∃ others, s.threads = task ::ₘ others ∧ task.awaits = true ∧
      s' = ⟨s.memory, others⟩ := by
  rw [step, Option.ite_none_right_eq_some, Option.some.injEq]
  constructor
  · rintro ⟨⟨hmem, hawaits⟩, rfl⟩
    exact ⟨s.threads.erase task, (Multiset.cons_erase hmem).symm, hawaits, rfl⟩
  · rintro ⟨others, hthreads, hawaits, rfl⟩
    rw [hthreads]
    exact ⟨⟨Multiset.mem_cons_self task others, hawaits⟩, by rw [Multiset.erase_cons_head]⟩

theorem step_recover {recovery : RecoveryTask} : s.step crates (.recover recovery) = some s' ↔
    recovery ∈ s.memory.state.keyPool.tasks ∧
      s' = { s with
        memory := s.memory.setPool (s.memory.state.keyPool.recover recovery) } := by
  rw [step, Option.ite_none_right_eq_some, Option.some.injEq, eq_comm (a := s')]

end Step

/-! ## What a step does -/

section Finish

variable (m : ServerMemory) (request : Request) (remaining : UInt32) (handled : Handled)

/-- A handler that is over leaves a response, or none. -/
theorem finish_memory : (finish m request remaining handled).1 = m ∨
    ∃ response, (finish m request remaining handled).1 = m.respond request response := by
  rw [finish]
  cases handled.result with
  | none => exact Or.inl rfl
  | some result => exact Or.inr ⟨_, rfl⟩

theorem finish_state : (finish m request remaining handled).1.state = m.state := by
  rcases finish_memory m request remaining handled with heq | ⟨response, heq⟩ <;> rw [heq]
  rfl

theorem finish_logs : (finish m request remaining handled).1.logs = m.logs := by
  rcases finish_memory m request remaining handled with heq | ⟨response, heq⟩ <;> rw [heq]
  rfl

theorem finish_sent : (finish m request remaining handled).1.sent = m.sent := by
  rcases finish_memory m request remaining handled with heq | ⟨response, heq⟩ <;> rw [heq]
  rfl

/-- What it leaves to a task is its record. -/
theorem finish_tasks : (finish m request remaining handled).2
    = ((handled.spawned.map Task.recording).toList : Multiset Task) := by
  rw [finish]
  cases handled.spawned with
  | none => rfl
  | some record => rfl

end Finish

/-- What the steps of a call do to the state; a step may be a check. -/
inductive Serves (state : AppState) : Option RateLimiter.Check → AppState → Prop where
  | same : Serves state none state
  | checked (c : RateLimiter.Check) :
      Serves state (some c)
        { state with rateLimiter := (state.rateLimiter.check c.now c.key).1 }
  | acquired : Serves state none { state with keyPool := state.keyPool.acquireKey.1 }
  | succeeded (acquired : AcquiredKey) :
      Serves state none { state with keyPool := state.keyPool.reportSuccess acquired }
  | failed (now : Instant) (acquired : AcquiredKey) :
      Serves state none { state with keyPool := (state.keyPool.reportFailure now acquired).1 }

/-- **What a task of a call does**: it goes on, with a request or without one, or it is
over.  It only goes on from a check that succeeds, and never back to one. -/
inductive CallStep (crates : Crates) (m : ServerMemory) (call : Call)
    (check : Option RateLimiter.Check) (n work : ℕ) : Left → Prop where
  | goesOn {state : AppState} {task : Task} (hstate : Serves m.state check state)
      (hpasses : ∀ c ∈ check, (m.state.rateLimiter.check c.now c.key).2.isOk = true)
      (hcall : task.call? = some call) (hpast : task.checked = true)
      (hwork : task.work n ≤ work) :
      CallStep crates m call check n work ({ m with state }, {task})
  | sends {state : AppState} {task : Task} (sent : DownstreamRequest)
      (hstate : Serves m.state check state) (hcheck : check = none)
      (hcall : task.call? = some call) (hpast : task.checked = true)
      (hwork : task.work n + 1 ≤ work) :
      CallStep crates m call check n work
        (ServerMemory.issue { m with state } call.clientKey sent, {task})
  | ends {state : AppState} (hstate : Serves m.state check state) (remaining : UInt32)
      (elapsed : Duration) (returned : Option Returned) :
      CallStep crates m call check n work
        (finish { m with state } call.request remaining (call.handled crates elapsed returned))
  | refused {state : AppState} (hstate : Serves m.state check state)
      (response : JsonResponse) :
      CallStep crates m call check n work
        (ServerMemory.respond { m with state } call.request (.json response), 0)
  | panicked {state : AppState} (hstate : Serves m.state check state) :
      CallStep crates m call check n work ({ m with state }, 0)

section CallStep

variable (crates : Crates) (outside : Outside) (m : ServerMemory) {call : Call}
  {work : ℕ}

/-- A key is acquired, and a request sent with it or built in vain. -/
theorem callStep_send {keyPool : KeyPool} (n : ℕ) {next : Task}
    (request : Forwarder.ClientRequest) (acquired : AcquiredKey)
    (hstate : Serves m.state none { m.state with keyPool })
    (hcall : next.call? = some call) (hpast : next.checked = true)
    (hwork : next.work n + 1 ≤ work) :
    CallStep crates m call none n work
      (send (m.setPool keyPool) call request acquired next) := by
  rw [send]
  split
  · exact .panicked hstate
  · exact .sends _ hstate rfl hcall hpast hwork

/-- A failed attempt is reported, and tried again if it was not the last one. -/
theorem callStep_failed (remaining : UInt32) (request : Forwarder.ClientRequest)
    (attempt : ℕ) (acquired : AcquiredKey) :
    CallStep crates m call none m.state.config.downstream.maxRetries.toNat
      (m.state.config.downstream.maxRetries.toNat - attempt)
      (failed crates outside m call remaining request attempt acquired) := by
  have hstate : Serves m.state none { m.state with
      keyPool := (m.state.keyPool.reportFailure outside.now acquired).1 } := .failed _ _
  simp only [failed]
  generalize m.state.keyPool.reportFailure outside.now acquired = report at hstate ⊢
  rcases report with ⟨keyPool, - | u⟩
  · exact .panicked hstate
  · simp only
    split
    · exact .panicked hstate
    · split
      · rename_i hattempt
        refine .goesOn hstate nofun rfl rfl ?_
        rw [Task.work]
        omega
      · exact .ends hstate _ _ _

/-- Every task of a call does what a task of a call does. -/
theorem callStep_advance {task : Task} (hcall : task.call? = some call) :
    CallStep crates m call (task.check? outside.now)
      m.state.config.downstream.maxRetries.toNat
      (task.work m.state.config.downstream.maxRetries.toNat)
      (advance crates outside m task) := by
  have hacquired : Serves m.state none
      { m.state with keyPool := m.state.keyPool.acquireKey.1 } := .acquired
  cases task with
  | limiting call' =>
      obtain rfl := Option.some.inj hcall
      have hstate : Serves m.state (some ⟨outside.now, call'.clientKey.key⟩) { m.state with
          rateLimiter := (m.state.rateLimiter.check outside.now call'.clientKey.key).1 } :=
        .checked ⟨outside.now, call'.clientKey.key⟩
      show CallStep crates m call' _ _ _ (limiting crates outside m call')
      unfold limiting
      rcases RateLimit.rateLimit_cases outside.now m.state.rateLimiter call'.clientKey with
        ⟨hok, remaining, hchecked⟩ | ⟨-, response, hchecked⟩ <;> rw [hchecked]
      · have hpasses : ∀ c ∈ some (⟨outside.now, call'.clientKey.key⟩ : RateLimiter.Check),
            (m.state.rateLimiter.check c.now c.key).2.isOk = true := by
          rintro c ⟨rfl⟩
          exact hok
        simp only
        split
        · exact .ends hstate _ _ _
        · exact .goesOn hstate hpasses rfl rfl (by simp [Task.work])
        · exact .goesOn hstate hpasses rfl rfl (by simp [Task.work])
      · exact .refused hstate _
  | retrying call' remaining request attempt =>
      obtain rfl := Option.some.inj hcall
      simp only [advance, retrying]
      generalize m.state.keyPool.acquireKey = acquisition at hacquired ⊢
      rcases acquisition with ⟨keyPool, e | acquired⟩
      · exact .ends hacquired _ _ _
      · exact callStep_send crates m _ request acquired hacquired rfl rfl le_rfl
  | retried call' remaining request attempt acquired =>
      obtain rfl := Option.some.inj hcall
      simp only [advance, retried]
      split
      · split
        · exact callStep_failed crates outside m remaining request attempt acquired
        · exact .goesOn (.succeeded acquired) nofun rfl rfl (Nat.zero_le _)
      · exact callStep_failed crates outside m remaining request attempt acquired
  | streaming call' remaining request =>
      obtain rfl := Option.some.inj hcall
      simp only [advance, streaming]
      generalize m.state.keyPool.acquireKey = acquisition at hacquired ⊢
      rcases acquisition with ⟨keyPool, e | acquired⟩
      · exact .ends hacquired _ _ _
      · exact callStep_send crates m _ request acquired hacquired rfl rfl le_rfl
  | streamed call' remaining acquired =>
      obtain rfl := Option.some.inj hcall
      have hfailed : Serves m.state none { m.state with
          keyPool := (m.state.keyPool.reportFailure outside.now acquired).1 } := .failed _ _
      simp only [advance, streamed]
      split
      · exact .ends .same _ _ _
      · split
        · generalize m.state.keyPool.reportFailure outside.now acquired = report
            at hfailed ⊢
          rcases report with ⟨keyPool, - | u⟩
          · exact .panicked hfailed
          · exact .goesOn hfailed nofun rfl rfl (Nat.zero_le _)
        · exact .ends (.succeeded acquired) _ _ _
  | reading call' remaining returned =>
      obtain rfl := Option.some.inj hcall
      exact .ends .same _ _ _
  | recording record => cases hcall
  | changing headers change => cases hcall
  | updating headers change => cases hcall
  | querying headers query => cases hcall

end CallStep

/-- **What a task does that is not part of a call**: it inserts its record, makes its
change in two steps, or answers its query. -/
inductive IdleStep (outside : Outside) (m : ServerMemory) : Task → Left → Prop where
  | records (record : RecordRequest) :
      IdleStep outside m (.recording record) (recording outside m record)
  | fails (headers : HeaderMap) (change : AdminChange) (db : Db) (response : JsonResponse) :
      IdleStep outside m (.changing headers change)
        ((m.setDb db).respond (.change headers change) (.json response), 0)
  | changes (headers : HeaderMap) (change : AdminChange) (db : Db) :
      IdleStep outside m (.changing headers change) (m.setDb db, {.updating headers change})
  | updates (headers : HeaderMap) (change : AdminChange) :
      IdleStep outside m (.updating headers change) (updating m headers change)
  | panics (headers : HeaderMap) (query : AdminQuery) :
      IdleStep outside m (.querying headers query) (m, 0)
  | replies (headers : HeaderMap) (query : AdminQuery) (result : Except AppError AdminReply) :
      IdleStep outside m (.querying headers query)
        (m.respond (.query headers query) (.ofAdminReply result), 0)

theorem idleStep_advance (crates : Crates) (outside : Outside) (m : ServerMemory) {task : Task}
    (hcall : task.call? = none) : IdleStep outside m task (advance crates outside m task) := by
  cases task with
  | recording record => exact .records record
  | changing headers change =>
      simp only [advance, changing]
      rcases change.statement outside.reply m.state.db with ⟨db, e | -⟩
      · exact .fails headers change db _
      · exact .changes headers change db
  | updating headers change => exact .updates headers change
  | querying headers query =>
      rw [advance, querying]
      split
      · exact .panics headers query
      · exact .replies headers query _
  | limiting call => cases hcall
  | retrying call remaining request attempt => cases hcall
  | retried call remaining request attempt acquired => cases hcall
  | streaming call remaining request => cases hcall
  | streamed call remaining acquired => cases hcall
  | reading call remaining returned => cases hcall

end Server

end XiaomiProxy
