import XiaomiProxy.Handlers.Completions
import XiaomiProxy.Lib.Ledger
import XiaomiProxy.Middleware.RateLimit

/-!
# The accounting of model calls

Requests to the four routes, and the tasks their handlers leave behind.  A task inserts
its row whenever it gets to run, in any order and with other requests in between, and
the insertion succeeds.

What the calls do to the key pool is left open, and so is how they interleave: what the
forwarders return is part of the request.

When all tasks are done, the log has gained one row for each response exactly if every
request that was answered was a chat completion or a message that was not streamed
(`accounted_iff`).
-/

namespace XiaomiProxy

/-- The program between two steps.  `served` is history: what the log is to say of the
responses that handlers returned. -/
structure Serving where
  state : AppState
  logs : RequestLogs
  pending : List RecordRequest
  served : List LogEntry

/-- A request goes through its handler, or a task inserts its row. -/
inductive ServingOp where
  | request (arrival : RateLimit.Arrival) (route : ModelRoute) (body : Json)
      (env : Handlers.Env)
  | record (reply : Db.Reply) (id : String) (task : RecordRequest)

namespace Serving

/-- One step.  A task is done once, and not before its insertion succeeds. -/
def step (s : Serving) : ServingOp → Option Serving
  | .request arrival route body env =>
      match RateLimit.enter arrival s.state with
      | (state, .error _) => some { s with state }
      | (state, .ok (clientKey, _)) =>
          let handled := route.handle env clientKey arrival.headers body
          some {
            state
            logs := s.logs
            pending := s.pending ++ handled.spawned.toList
            served := s.served ++ (handled.reply.map (route.entry clientKey body)).toList }
  | .record reply id task =>
      if task ∈ s.pending then
        match Db.recordRequest reply id s.logs task with
        | (_, .error _) => none
        | (logs, .ok ()) => some { s with logs, pending := s.pending.erase task }
      else none

/-- A request that gets to its handler and is answered by its forwarder is one that is
recorded. -/
def Logged (s : Serving) : ServingOp → Prop
  | .request arrival route body env =>
      match (RateLimit.enter arrival s.state).2 with
      | .error _ => True
      | .ok _ => route.answered env arrival.headers body = true → route.records body = true
  | .record _ _ _ => True

instance (s : Serving) : DecidablePred s.Logged
  | .request arrival route body env => by
      rw [Logged]
      split <;> infer_instance
  | .record _ _ _ => isTrue trivial

/-- The log has gained one row for each response, and no other row. -/
def Accounted (logs : RequestLogs) (s : Serving) : Prop :=
  ∃ gained, s.logs.rows = logs.rows ++ gained ∧
    (gained.map RequestLogRow.entry).Perm s.served

/-- What is on record: in the log, or in the hands of a task. -/
def onRecord (s : Serving) : Multiset LogEntry :=
  ↑(s.logs.rows.map RequestLogRow.entry) + ↑(s.pending.map RecordRequest.entry)

/-- What is to be on record, if the log began with these rows. -/
def due (logs : RequestLogs) (s : Serving) : Multiset LogEntry :=
  ↑(logs.rows.map RequestLogRow.entry) + ↑s.served

/-- What a step does to the log and to the ledger. -/
structure Step (s s' : Serving) (logged : Prop) : Prop where
  rows : s.logs.rows <+: s'.logs.rows
  entered : ∀ logs, Ledger.Entered logged s.onRecord (s.due logs) s'.onRecord (s'.due logs)

section Step

variable {s s' : Serving} {op : ServingOp} {logs : RequestLogs}

theorem due_add (logs : RequestLogs) {x : Multiset LogEntry}
    (h : (s'.served : Multiset LogEntry) = s.served + x) :
    s'.due logs = s.due logs + x := by
  rw [due, due, h, add_assoc]

/-- A task moves its entry into the log. -/
theorem step_record {reply : Db.Reply} {id : String} {task : RecordRequest}
    (hstep : s.step (.record reply id task) = some s') : Step s s' True := by
  obtain ⟨hpending, hstep⟩ := Option.ite_none_right_eq_some.mp hstep
  split at hstep
  · cases hstep
  · rename_i logs' hrecord
    cases hstep
    obtain ⟨row, hrows, hentry⟩ := Db.recordRequest_ok hrecord
    refine ⟨hrows ▸ List.prefix_append _ _,
      fun logs => Or.inl ⟨trivial, 0, ?_, (add_zero _).symm⟩⟩
    have hpending : (s.pending : Multiset RecordRequest)
        = task ::ₘ ↑(s.pending.erase task) := by
      rw [← Multiset.coe_erase, Multiset.cons_erase hpending]
    have hmoved := congrArg (Multiset.map RecordRequest.entry) hpending
    simp only [Multiset.map_coe, Multiset.map_cons] at hmoved
    simp only [onRecord, hrows, hmoved, List.map_append, List.map_singleton, hentry,
      ← Multiset.coe_add, Multiset.coe_singleton, ← Multiset.singleton_add, add_zero]
    abel

/-- What a handler leaves to a task is on record. -/
theorem onRecord_spawn (state : AppState) (logs : RequestLogs) (pending : List RecordRequest)
    (spawned : Option RecordRequest) (served : List LogEntry) :
    onRecord { state, logs, pending := pending ++ spawned.toList, served }
      = onRecord { state, logs, pending, served }
        + ↑(spawned.map RecordRequest.entry).toList := by
  rw [onRecord, onRecord, List.map_append, ← Multiset.coe_add, add_assoc, Option.toList_map]

/-- A request leaves a task for its response, or a response without one, or neither. -/
theorem step_request {arrival : RateLimit.Arrival} {route : ModelRoute} {body : Json}
    {env : Handlers.Env} (hstep : s.step (.request arrival route body env) = some s') :
    Step s s' (s.Logged (.request arrival route body env)) := by
  simp only [step] at hstep
  split at hstep
  · rename_i state refusal henter
    cases hstep
    refine ⟨List.prefix_rfl,
      fun logs => Or.inl ⟨?_, 0, (add_zero _).symm, (add_zero _).symm⟩⟩
    rw [Logged, henter]
    trivial
  · rename_i state clientKey remaining henter
    cases hstep
    refine ⟨List.prefix_rfl, fun logs => ?_⟩
    have hauth := RateLimit.auth_of_enter arrival s.state (congrArg Prod.snd henter)
    have hhandled := route.recorded_handle env arrival.headers body (Auth.maskKey_of_auth hauth)
    rw [Logged, henter]
    rcases hhandled.cases with ⟨hlogged, hspawned⟩ | ⟨hlogged, hspawned, reply, hreply⟩
    · refine Or.inl ⟨hlogged, _, ?_, due_add logs (Multiset.coe_add _ _).symm⟩
      rw [onRecord_spawn, hspawned]
      rfl
    · refine Or.inr ⟨hlogged, ?_, route.entry clientKey body reply, ?_⟩
      · rw [onRecord_spawn, hspawned]
        show s.onRecord + 0 = s.onRecord
        exact add_zero _
      · rw [hreply]
        exact due_add logs (Multiset.coe_add _ _).symm

/-- **What a step does**: the log grows at its end, and what the step makes due is
entered if it is `Logged`, and not otherwise. -/
theorem step_entered (hstep : s.step op = some s') : Step s s' (s.Logged op) := by
  cases op with
  | request arrival route body env => exact step_request hstep
  | record reply id task => exact step_record hstep

/-- When all tasks are done, what is on record is what the log has gained. -/
theorem accounted_iff_onRecord (hrows : logs.rows <+: s.logs.rows) (hdone : s.pending = []) :
    s.Accounted logs ↔ s.onRecord = s.due logs := by
  obtain ⟨gained, hgained⟩ := hrows
  rw [onRecord, due, hdone, List.map_nil, Multiset.coe_nil, add_zero, ← hgained,
    List.map_append, ← Multiset.coe_add, add_right_inj, Multiset.coe_eq_coe]
  constructor
  · rintro ⟨gained', hgained', hperm⟩
    rw [← hgained] at hgained'
    rwa [List.append_cancel_left hgained']
  · intro hperm
    exact ⟨gained, hgained.symm, hperm⟩

end Step

/-- The program before its first request. -/
def start (state : AppState) (logs : RequestLogs) : Serving where
  state
  logs
  pending := []
  served := []

/-- **When all tasks are done, the log has gained exactly one row for each response if
and only if every request that was answered was a chat completion or a message that was
not streamed.** -/
theorem accounted_iff (state : AppState) (logs : RequestLogs) (ops : List ServingOp)
    {t : Serving} (hrun : Runs.run step (start state logs) ops = some t)
    (hdone : t.pending = []) :
    t.Accounted logs ↔ Runs.Along step Logged (start state logs) ops := by
  have hrows : logs.rows <+: t.logs.rows := Runs.run_invariant
    (I := fun s => logs.rows <+: s.logs.rows)
    (fun _ _ _ h hstep => h.trans (step_entered hstep).rows) List.prefix_rfl hrun
  have hstart : (start state logs).onRecord = (start state logs).due logs := rfl
  rw [accounted_iff_onRecord hrows hdone]
  exact Ledger.run_balanced_iff (fun _ _ _ hstep => (step_entered hstep).entered logs) hstart
    hrun

/-! ## Single runs -/

/-- The configuration with a client key and a downstream key. -/
def oneOfEach : Config :=
  { Config.withoutFile with clientKeys := [⟨"sk-1"⟩], downstreamKeys := [⟨"tp-1", 1⟩] }

/-- The state its first start leads to. -/
def started : AppState where
  config := oneOfEach
  keyPool := .new [⟨"tp-1", 1⟩]
  rateLimiter := .new 60 60
  db := {
    clientKeys := KeyedTable.empty.insertOrReplace
      ⟨"sk-1", some "Imported from config", none, some "now"⟩
    downstreamKeys := KeyedTable.empty.insertOrReplace ⟨"tp-1", 1, some "now"⟩ }
  clientKeys := {"sk-1"}

/-- A body that asks for a model, and for nothing else. -/
def asking (model : String) : Json := .object [("model", .string model)]

/-- A body that asks for a stream from a model. -/
def askingStream (model : String) : Json :=
  .object [("model", .string model), ("stream", .bool true)]

/-- What `serde_json` makes of the bodies below: of an object with a model, asking for a
stream or not, and of no text at all. -/
def serde : SerdeJson where
  toVec body :=
    let model := ((body.get "model").bind Json.asStr).getD ""
    let stream := if Handlers.isStreaming body then ",\"stream\":true" else ""
    .ok (HeaderValue.ofText ("\x7b\"model\":\"" ++ model ++ "\"" ++ stream ++ "\x7d"))
  fromSlice _ := .error "EOF while parsing a value at line 1 column 0"

/-- A request with the key `sk-1`, whose forwarder gets an empty response. -/
def call (route : ModelRoute) (body : Json) : ServingOp :=
  .request { now := 0, headers := [("x-api-key", HeaderValue.ofText "sk-1")] } route body
    (.alone serde (Forwarder.answering (.ok (Response.ofStatus ⟨200, by decide⟩))) started
      5000000)

/-- The record of such a request for a model, if it is recorded. -/
def callRecord (route : ModelRoute) (model : String) : RecordRequest where
  clientKey := "sk-1"
  protocol := route.protocol.asStr
  path := route.path
  model := some model
  statusCode := 200
  latencyMs := 5
  promptTokens := none
  completionTokens := none
  totalTokens := none
  isStream := false

/-- A chat completion and a message, and their rows in the other order. -/
def twoCalls : List ServingOp :=
  [call .chatCompletions (asking "mimo-v2"), call .messages (asking "mimo-v2-pro"),
    .record (.ok "now") "id-1" (callRecord .messages "mimo-v2-pro"),
    .record (.ok "now") "id-2" (callRecord .chatCompletions "mimo-v2")]

theorem accounted_twoCalls :
    AppState.new (.succeeding "now") oneOfEach .empty = .ok started ∧
      ∃ t, Runs.run step (start started .empty) twoCalls = some t ∧ t.pending = [] ∧
        t.Accounted .empty := by
  have hdone : (Runs.run step (start started .empty) twoCalls).map pending = some [] := by
    decide +kernel
  obtain ⟨t, hrun, hdone⟩ := Option.map_eq_some_iff.mp hdone
  exact ⟨rfl, t, hrun, hdone,
    (accounted_iff started .empty twoCalls hrun hdone).mpr (by decide +kernel)⟩

/-- A chat completion that is streamed, and embeddings. -/
def unrecordedCalls : List ServingOp :=
  [call .chatCompletions (askingStream "mimo-v2"), call .embeddings (asking "embed-1")]

/-- Both are answered, and no row comes of it. -/
theorem not_accounted :
    AppState.new (.succeeding "now") oneOfEach .empty = .ok started ∧
      ∃ t, Runs.run step (start started .empty) unrecordedCalls = some t ∧
        t.pending = [] ∧ t.logs = .empty ∧
        t.served = [⟨"sk-1", "openai", "/chat/completions", some "mimo-v2", 200, true⟩,
          ⟨"sk-1", "openai", "/embeddings", some "embed-1", 200, false⟩] ∧
        ¬ t.Accounted .empty := by
  have hend : (Runs.run step (start started .empty) unrecordedCalls).map
      (fun t => (t.pending, t.logs, t.served))
      = some ([], .empty, [⟨"sk-1", "openai", "/chat/completions", some "mimo-v2", 200, true⟩,
          ⟨"sk-1", "openai", "/embeddings", some "embed-1", 200, false⟩]) := by
    decide +kernel
  obtain ⟨t, hrun, hend⟩ := Option.map_eq_some_iff.mp hend
  obtain ⟨hdone, hrest⟩ := Prod.mk.inj hend
  obtain ⟨hlogs, hserved⟩ := Prod.mk.inj hrest
  refine ⟨rfl, t, hrun, hdone, hlogs, hserved, ?_⟩
  rintro ⟨gained, hgained, hperm⟩
  have hnil : gained = [] := by
    rw [hlogs] at hgained
    exact hgained.symm
  rw [hnil, hserved] at hperm
  exact absurd hperm.nil_eq nofun

end Serving

end XiaomiProxy
