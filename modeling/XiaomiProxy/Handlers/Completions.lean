import XiaomiProxy.Json
import XiaomiProxy.Middleware.Auth
import XiaomiProxy.Proxy.Forwarder
import XiaomiProxy.State
import XiaomiProxy.Storage.RequestLogs

/-!
# The model calls

`chat_completions`, `completions` and `embeddings` of `handlers/openai.rs` and
`messages` of `handlers/anthropic.rs`.  A handler is run against an environment that
says what the forwarders return to it.

* `modelCall` — `chat_completions` and `messages`, which may stream.
* `plainCall` — `completions` and `embeddings`.
* `ModelRoute` — the four routes, and what each of them records (`recorded_handle`).
-/

namespace XiaomiProxy

/-- A response as a handler returns it: whole, or with a body that is still to come. -/
inductive Reply where
  | whole (status : StatusCode) (headers : HeaderMap) (body : Bytes)
  | streaming (response : ClientResponse)

namespace Reply

def status : Reply → StatusCode
  | .whole status _ _ => status
  | .streaming response => response.status

def isStreaming : Reply → Bool
  | .whole _ _ _ => false
  | .streaming _ => true

end Reply

/-- What a handler leaves: the record it gave to a task of its own, and what it returns;
`none` when it panics. -/
structure Handled where
  spawned : Option RecordRequest
  result : Option (Except AppError Reply)

namespace Handled

/-- The response of a handler that returns one. -/
def reply (handled : Handled) : Option Reply :=
  match handled.result with
  | some (.ok reply) => some reply
  | _ => none

/-- Go on with what a step of a handler gives.  One that fails or panics ends it. -/
def andThen {α : Type} (step : Option (Except AppError α)) (next : α → Handled) : Handled :=
  match step with
  | none => { spawned := none, result := none }
  | some (.error e) => { spawned := none, result := some (.error e) }
  | some (.ok a) => next a

section AndThen

variable {α : Type} {step : Option (Except AppError α)} {next : α → Handled}

/-- A response is that of the step that goes on. -/
theorem reply_andThen {reply : Reply} (h : (andThen step next).reply = some reply) :
    ∃ a, step = some (.ok a) ∧ (next a).reply = some reply := by
  rcases step with _ | e | a
  · cases h
  · cases h
  · exact ⟨a, rfl, h⟩

/-- So is a record. -/
theorem spawned_andThen {record : RecordRequest}
    (h : (andThen step next).spawned = some record) :
    ∃ a, step = some (.ok a) ∧ (next a).spawned = some record := by
  rcases step with _ | e | a
  · cases h
  · cases h
  · exact ⟨a, rfl, h⟩

end AndThen

end Handled

namespace Handlers

/-- The other side of a handler: what the forwarders return to it, `none` when they
panic, and how long they take. -/
structure Env where
  serde : SerdeJson
  forwardRequest : Forwarder.ClientRequest →
    Option (Except AppError (Bytes × StatusCode × HeaderMap))
  forwardStreaming : Forwarder.ClientRequest → Option (Except AppError ClientResponse)
  elapsed : Duration

/-- The environment of a handler whose forwarder finds the pool as it is in `state`, and
has it to itself. -/
def Env.alone (serde : SerdeJson) (downstream : Forwarder.Downstream) (state : AppState)
    (elapsed : Duration) : Env where
  serde
  forwardRequest request :=
    (Forwarder.forwardRequest downstream state.config state.keyPool request).result
  forwardStreaming request :=
    (Forwarder.forwardStreaming downstream state.config state.keyPool request).result
  elapsed

/-- Whether a body asks for a stream. -/
def isStreaming (body : Json) : Bool := ((body.get "stream").bind Json.asBool).getD false

/-- The model a body asks for. -/
def modelOf (body : Json) : String := ((body.get "model").bind Json.asStr).getD "unknown"

/-- Prompt, completion and total tokens. -/
abbrev Usage := Option UInt32 × Option UInt32 × Option UInt32

/-- A count in a `usage` object. -/
def tokenCount (usage : Option Json) (name : String) : Option UInt32 :=
  ((usage.bind (Json.get name)).bind Json.asU64).map UInt64.toUInt32

/-- `extract_openai_usage`. -/
def extractOpenaiUsage (serde : SerdeJson) (body : Bytes) : Usage :=
  match serde.fromSlice body with
  | .ok json =>
      let usage := json.get "usage"
      (tokenCount usage "prompt_tokens", tokenCount usage "completion_tokens",
        tokenCount usage "total_tokens")
  | .error _ => (none, none, none)

/-- `extract_anthropic_usage`. -/
def extractAnthropicUsage (serde : SerdeJson) (body : Bytes) :
    Option UInt32 × Option UInt32 :=
  match serde.fromSlice body with
  | .ok json =>
      let usage := json.get "usage"
      (tokenCount usage "input_tokens", tokenCount usage "output_tokens")
  | .error _ => (none, none)

/-- The usage of an Anthropic message, whose total is a sum that wraps. -/
def anthropicUsage (serde : SerdeJson) (body : Bytes) : Usage :=
  let (pt, ct) := extractAnthropicUsage serde body
  (pt, ct, pt.bind fun p => ct.map fun c => p + c)

/-- The response to a request that was forwarded without streaming. -/
def jsonReply (status : StatusCode) (respBody : Bytes) : Reply :=
  .whole status [("content-type", HeaderValue.ofText "application/json")] respBody

/-- `chat_completions` and `messages`. -/
def modelCall (env : Env) (protocol : Protocol) (path : String) (usageOf : Bytes → Usage)
    (clientKey : ClientKey) (headers : HeaderMap) (body : Json) : Handled :=
  .andThen (some ((env.serde.toVec body).mapError .badRequest)) fun bodyBytes =>
  if isStreaming body then
    .andThen (env.forwardStreaming { protocol, path, headers, body := bodyBytes })
      fun response =>
    -- all that is left of a streamed call is this line of the log, with the key masked
    .andThen ((Config.maskKey clientKey.key).map .ok) fun _ =>
    { spawned := none, result := some (.ok (.streaming response)) }
  else
    .andThen (env.forwardRequest { protocol, path, headers, body := bodyBytes })
      fun (respBody, status, _) =>
    let (pt, ct, tt) := usageOf respBody
    .andThen ((Config.maskKey clientKey.key).map .ok) fun _ =>
    { spawned := some {
        clientKey := clientKey.key
        protocol := protocol.asStr
        path
        model := some (modelOf body)
        statusCode := status.asU16
        latencyMs := UInt64.ofNat (env.elapsed / 1000000)
        promptTokens := pt
        completionTokens := ct
        totalTokens := tt
        isStream := false }
      result := some (.ok (jsonReply status respBody)) }

/-- `completions` and `embeddings`. -/
def plainCall (env : Env) (path : String) (headers : HeaderMap) (body : Json) : Handled :=
  .andThen (some ((env.serde.toVec body).mapError .badRequest)) fun bodyBytes =>
  .andThen (env.forwardRequest { protocol := .openAI, path, headers, body := bodyBytes })
    fun (respBody, status, _) =>
  { spawned := none, result := some (.ok (jsonReply status respBody)) }

def chatCompletions (env : Env) : ClientKey → HeaderMap → Json → Handled :=
  modelCall env .openAI "/chat/completions" (extractOpenaiUsage env.serde)

def completions (env : Env) : HeaderMap → Json → Handled := plainCall env "/completions"

def embeddings (env : Env) : HeaderMap → Json → Handled := plainCall env "/embeddings"

def messages (env : Env) : ClientKey → HeaderMap → Json → Handled :=
  modelCall env .anthropic "/v1/messages" (anthropicUsage env.serde)

/-! ## What a call records -/

/-- What the log is to say of a request and the response to it. -/
def entryOf (protocol : Protocol) (path : String) (clientKey : ClientKey) (body : Json)
    (reply : Reply) : LogEntry where
  clientKey := clientKey.key
  protocol := protocol.asStr
  path
  -- the text of the field `model`, or `unknown` for a body without one
  model := some (((body.get "model").bind Json.asStr).getD "unknown")
  status := reply.status.asU16.toNat
  isStream := reply.isStreaming

/-- A forwarder returns a response. -/
def isResponse {α : Type} : Option (Except AppError α) → Bool
  | some (.ok _) => true
  | _ => false

/-- The forwarder of a call, the streaming one or the other, returns a response. -/
def answered (env : Env) (protocol : Protocol) (path : String) (headers : HeaderMap)
    (body : Json) (stream : Bool) : Bool :=
  match env.serde.toVec body with
  | .error _ => false
  | .ok bodyBytes =>
      let request : Forwarder.ClientRequest := { protocol, path, headers, body := bodyBytes }
      if stream then isResponse (env.forwardStreaming request)
      else isResponse (env.forwardRequest request)

/-- The records of a handler and its response: there is a response exactly if its
forwarder returned one, and a record exactly if the handler `records` its responses. -/
structure Recorded (answered records : Bool) (entry : Reply → LogEntry)
    (handled : Handled) : Prop where
  reply : handled.reply.isSome = answered
  spawned : handled.spawned.map RecordRequest.entry
    = if records then handled.reply.map entry else none

section Recorded

variable (env : Env) (path : String) (headers : HeaderMap) (body : Json)
  {clientKey : ClientKey}

/-- A handler that is over before it has a response records none. -/
theorem Recorded.none {records : Bool} {entry : Reply → LogEntry} {handled : Handled}
    (hspawned : handled.spawned = .none) (hreply : handled.reply = .none) :
    Recorded false records entry handled := by
  constructor
  · rw [hreply]
    rfl
  · rw [hspawned, hreply]
    cases records <;> rfl

/-- A handler either records the response it returns, if it returns one, or returns one
that it does not record. -/
theorem Recorded.cases {answered records : Bool} {entry : Reply → LogEntry}
    {handled : Handled} (h : Recorded answered records entry handled) :
    (answered = true → records = true) ∧
        handled.spawned.map RecordRequest.entry = handled.reply.map entry ∨
      ¬ (answered = true → records = true) ∧ handled.spawned = .none ∧
        ∃ reply, handled.reply = some reply := by
  obtain ⟨hreply, hspawned⟩ := h
  cases hresponse : handled.reply with
  | none =>
      rw [hresponse] at hreply hspawned
      refine Or.inl ⟨fun hanswered => ?_, ?_⟩
      · rw [← hreply] at hanswered
        cases hanswered
      · rw [hspawned]
        cases records <;> rfl
  | some reply =>
      rw [hresponse] at hreply hspawned
      cases records with
      | true => exact Or.inl ⟨fun _ => rfl, hspawned⟩
      | false =>
          refine Or.inr ⟨fun h => ?_, Option.map_eq_none_iff.mp hspawned, reply, rfl⟩
          exact Bool.false_ne_true (h hreply.symm)

/-- `chat_completions` and `messages` record what they do not stream. -/
theorem recorded_modelCall (protocol : Protocol) (usageOf : Bytes → Usage)
    (hmask : ∃ masked, Config.maskKey clientKey.key = some masked) :
    Recorded (answered env protocol path headers body (isStreaming body))
      (!isStreaming body) (entryOf protocol path clientKey body)
      (modelCall env protocol path usageOf clientKey headers body) := by
  obtain ⟨masked, hmask⟩ := hmask
  rw [modelCall, answered]
  rcases env.serde.toVec body with e | bodyBytes
  · exact Recorded.none rfl rfl
  · simp only [Except.mapError, Handled.andThen]
    cases hstream : isStreaming body with
    | true =>
        simp only [if_true]
        rcases env.forwardStreaming _ with _ | e | response
        · exact Recorded.none rfl rfl
        · exact Recorded.none rfl rfl
        · rw [hmask]
          exact ⟨rfl, rfl⟩
    | false =>
        simp only [Bool.false_eq_true, if_false]
        rcases env.forwardRequest _ with _ | e | ⟨respBody, status, respHeaders⟩
        · exact Recorded.none rfl rfl
        · exact Recorded.none rfl rfl
        · rw [hmask]
          exact ⟨rfl, rfl⟩

/-- `completions` and `embeddings` record nothing. -/
theorem recorded_plainCall (clientKey : ClientKey) :
    Recorded (answered env .openAI path headers body false) false
      (entryOf .openAI path clientKey body) (plainCall env path headers body) := by
  rw [plainCall, answered]
  rcases env.serde.toVec body with e | bodyBytes
  · exact Recorded.none rfl rfl
  · simp only [Except.mapError, Handled.andThen, Bool.false_eq_true, if_false]
    rcases env.forwardRequest _ with _ | e | ⟨respBody, status, respHeaders⟩
    · exact Recorded.none rfl rfl
    · exact Recorded.none rfl rfl
    · exact ⟨rfl, rfl⟩

end Recorded

end Handlers

/-- The routes that forward a model call. -/
inductive ModelRoute where
  | chatCompletions
  | completions
  | embeddings
  | messages
  deriving DecidableEq, Repr

namespace ModelRoute

open Handlers

/-- The handler of a route. -/
def handle (env : Env) (clientKey : ClientKey) (headers : HeaderMap) (body : Json) :
    ModelRoute → Handled
  | .chatCompletions => Handlers.chatCompletions env clientKey headers body
  | .completions => Handlers.completions env headers body
  | .embeddings => Handlers.embeddings env headers body
  | .messages => Handlers.messages env clientKey headers body

def protocol : ModelRoute → Protocol
  | .chatCompletions | .completions | .embeddings => .openAI
  | .messages => .anthropic

/-- The path a route forwards to. -/
def path : ModelRoute → String
  | .chatCompletions => "/chat/completions"
  | .completions => "/completions"
  | .embeddings => "/embeddings"
  | .messages => "/v1/messages"

/-- Chat completions and messages are streamed if the body asks for it. -/
def streams (body : Json) : ModelRoute → Bool
  | .chatCompletions | .messages => isStreaming body
  | .completions | .embeddings => false

/-- The calls that are recorded: chat completions and messages that are not streamed. -/
def records (body : Json) : ModelRoute → Bool
  | .chatCompletions | .messages => !isStreaming body
  | .completions | .embeddings => false

/-- What the log is to say of a request to a route and the response to it. -/
def entry (route : ModelRoute) (clientKey : ClientKey) (body : Json) (reply : Reply) :
    LogEntry :=
  entryOf route.protocol route.path clientKey body reply

/-- The forwarder of a request to a route returns a response. -/
def answered (route : ModelRoute) (env : Env) (headers : HeaderMap) (body : Json) : Bool :=
  Handlers.answered env route.protocol route.path headers body (route.streams body)

/-- **What the handlers record**: there is a response exactly if the forwarder returned
one, and of the responses exactly those to chat completions and messages that are not
streamed are recorded, with what the log is to say of them. -/
theorem recorded_handle (route : ModelRoute) (env : Env) {clientKey : ClientKey}
    (headers : HeaderMap) (body : Json)
    (hmask : ∃ masked, Config.maskKey clientKey.key = some masked) :
    Recorded (route.answered env headers body) (route.records body)
      (route.entry clientKey body) (route.handle env clientKey headers body) := by
  cases route with
  | chatCompletions =>
      exact recorded_modelCall env "/chat/completions" headers body .openAI
        (extractOpenaiUsage env.serde) hmask
  | completions => exact recorded_plainCall env _ headers body clientKey
  | embeddings => exact recorded_plainCall env _ headers body clientKey
  | messages =>
      exact recorded_modelCall env "/v1/messages" headers body .anthropic
        (anthropicUsage env.serde) hmask

end ModelRoute

end XiaomiProxy
