import XiaomiProxy.Lib.Ledger
import XiaomiProxy.Middleware.Credentials
import XiaomiProxy.Server

/-!
# What is answered, and what is put to account

A call ends in a response, or in none if its client goes away or its handler panics; and
the response in a row of the log, if its route records it, the client key may be charged
for it, and its insertion succeeds.  The row is inserted by a task of its own, whenever
that gets to run.

* `answered_le_admitted` — every answer of the provider goes to a call of its own, which was let
  through with a client key of the cache.
* `billed` — every row is one of an answer of its own, and they are complete exactly if no
  insertion failed.
-/

namespace XiaomiProxy

/-- The call of a request to a proxy route, if it shows a client key. -/
def Call.of? (route : ProxyRoute) (headers : HeaderMap) (body : Json) : Option Call :=
  match h : Auth.extractKey headers with
  | some key => some { route, headers, body, clientKey := { key }, shown := h }
  | none => none

theorem Call.of?_eq_some {route : ProxyRoute} {headers : HeaderMap} {body : Json} {key : String}
    (h : Auth.extractKey headers = some key) :
    Call.of? route headers body
      = some { route, headers, body, clientKey := { key }, shown := h } := by
  unfold Call.of?
  split
  · rename_i key' hkey
    obtain rfl := Option.some.inj (hkey.symm.trans h)
    rfl
  · rename_i hnone
    cases hnone.symm.trans h

theorem Call.of?_eq_none {route : ProxyRoute} {headers : HeaderMap} {body : Json}
    (h : Auth.extractKey headers = none) : Call.of? route headers body = none := by
  unfold Call.of?
  split
  · rename_i key hkey
    cases hkey.symm.trans h
  · rfl

namespace Served

/-- What the log is to say of a response: nothing, if its route does not record it. -/
def logged? (served : Served) : Option LogEntry :=
  match served.request, served.response with
  | .proxy (.model route) headers body, .proxied reply =>
      if route.records body = true then
        (Auth.extractKey headers).map fun key => route.entry { key } body reply
      else none
  | _, _ => none

/-- The call an answer of the provider went to. -/
def call? (served : Served) : Option Call :=
  match served.request, served.response with
  | .proxy route headers body, .proxied _ => Call.of? route headers body
  | _, _ => none

end Served

/-- What a task is about to put into the log. -/
def Task.logged? : Task → Option LogEntry
  | .recording record => some record.entry
  | .limiting _ | .retrying _ _ _ _ | .retried _ _ _ _ _ | .streaming _ _ _ => none
  | .streamed _ _ _ | .reading _ _ _ | .changing _ _ | .updating _ _ | .querying _ _ => none

namespace Server

/-- What the tasks are about to put into the log. -/
def pending (tasks : Multiset Task) : Multiset LogEntry := tasks.filterMap Task.logged?

/-- What the log is to say of the responses. -/
def billable (m : ServerMemory) : Multiset LogEntry := ↑(m.responses.filterMap Served.logged?)

/-- What is on record: in the log, or in the hands of a task. -/
def onRecord (s : Server) : Multiset LogEntry :=
  ↑(s.memory.logs.rows.map RequestLogRow.entry) + pending s.threads

/-- What is to be on record, if the log began with these rows. -/
def due (logs : RequestLogs) (s : Server) : Multiset LogEntry :=
  ↑(logs.rows.map RequestLogRow.entry) + billable s.memory

/-- No insertion fails in this step. -/
def Inserts (s : Server) : ServerAction → Prop
  | .advance (.recording record) outside =>
      (Db.recordRequest outside.reply outside.id s.memory.logs record).2.isOk = true
  | .advance _ _ | .arrive _ | .leave _ | .recover _ => True

section Entries

variable {crates : Crates} {outside : Outside} {m : ServerMemory} {call : Call}
  {tasks others : Multiset Task} {task : Task} {request : Request}

theorem pending_add : pending (tasks + others) = pending tasks + pending others :=
  Multiset.filterMap_add _ _ _

theorem pending_cons_of_none (h : task.logged? = none) :
    pending (task ::ₘ tasks) = pending tasks := Multiset.filterMap_cons_none _ _ h

theorem pending_cons_of_some {entry : LogEntry} (h : task.logged? = some entry) :
    pending (task ::ₘ tasks) = {entry} + pending tasks :=
  (Multiset.filterMap_cons_some _ _ _ h).trans (Multiset.singleton_add _ _).symm

theorem pending_singleton_of_none (h : task.logged? = none) : pending {task} = 0 :=
  pending_cons_of_none h

theorem logged?_of_call (h : task.call? = some call) : task.logged? = none := by
  cases task <;> first | rfl | cases h

theorem billable_respond (response : ServerResponse) :
    billable (m.respond request response)
      = billable m + ↑(Served.logged? ⟨request, response⟩).toList := by
  rw [billable, ServerMemory.respond, List.filterMap_append, ← Multiset.coe_add, billable]
  cases h : Served.logged? ⟨request, response⟩ <;> simp [h]

theorem billable_respond_of_none {response : ServerResponse}
    (h : Served.logged? ⟨request, response⟩ = none) :
    billable (m.respond request response) = billable m := by
  rw [billable_respond, h]
  exact add_zero _

/-- **What a handler spawns is what the log is to say of its response.** -/
theorem entry_spawned (crates : Crates) (elapsed : Duration) (returned : Option Returned) :
    (call.handled crates elapsed returned).spawned.map RecordRequest.entry
      = (call.handled crates elapsed returned).reply.bind fun reply =>
          Served.logged? ⟨call.request, .proxied reply⟩ := by
  obtain ⟨route, headers, body, clientKey, shown⟩ := call
  cases route with
  | listModels =>
      have hnone : (Call.handled crates elapsed
          ⟨.listModels, headers, body, clientKey, shown⟩ returned).spawned = none := by
        rw [Option.eq_none_iff_forall_ne_some]
        intro record hrecord
        obtain ⟨response, -, h⟩ := Handled.spawned_andThen hrecord
        cases h
      rw [hnone]
      cases (Call.handled crates elapsed _ returned).reply <;> rfl
  | model route =>
      have hmask := Config.maskKey_of_ascii (Auth.ascii_of_extractKey shown)
      have hrecorded := (route.recorded_handle
        { serde := crates.serde
          forwardRequest := fun _ => returned.bind Returned.whole?
          forwardStreaming := fun _ => returned.bind Returned.stream?
          elapsed } headers body hmask).spawned
      refine hrecorded.trans ?_
      simp only [Call.handled, ProxyRoute.handle]
      cases (route.handle _ clientKey headers body).reply with
      | none => cases route.records body <;> rfl
      | some reply =>
          simp only [Option.map_some, Option.bind_some, Served.logged?, Call.request, shown]

/-- The layer that adds a header to a response does not change what the log is to say. -/
theorem logged?_withRemaining (remaining : UInt32) (result : Except AppError Reply) :
    Served.logged? ⟨request, (ServerResponse.ofReply result).withRemaining remaining⟩
      = (result.toOption).bind fun reply => Served.logged? ⟨request, .proxied reply⟩ := by
  rcases result with e | ⟨status, headers, body⟩ | response
  · rcases request with ⟨route | -, headers, body⟩ | - | - | - <;> rfl
  · rcases request with ⟨route | -, headers, body⟩ | - | - | - <;> rfl
  · rcases request with ⟨route | -, headers, body⟩ | - | - | - <;> rfl

/-- A handler that is over leaves its entry to a task. -/
theorem billable_finish (remaining : UInt32) (elapsed : Duration)
    (returned : Option Returned) :
    billable (finish m call.request remaining (call.handled crates elapsed returned)).1
      = billable m + pending (finish m call.request remaining (call.handled crates elapsed
          returned)).2 := by
  have hspawned : (call.handled crates elapsed returned).spawned.map RecordRequest.entry
    = _ := entry_spawned crates elapsed returned
  rw [finish_tasks]
  generalize call.handled crates elapsed returned = handled at hspawned ⊢
  have hpending : pending ((handled.spawned.map Task.recording).toList : Multiset Task)
      = ↑(handled.spawned.map RecordRequest.entry).toList := by
    cases handled.spawned <;> rfl
  rw [hpending, hspawned, Handled.reply, finish]
  cases handled.result with
  | none => exact (add_zero _).symm
  | some result =>
      simp only
      rw [billable_respond, logged?_withRemaining]
      rcases result with e | reply <;> rfl

end Entries

/-! ## One step -/

/-- A step that leaves the log alone, and an entry to a task for what it answers. -/
structure Hands (m : ServerMemory) (left : Left) : Prop where
  logs : left.1.logs = m.logs
  billable : billable left.1 = billable m + pending left.2

section Step

variable {crates : Crates} {outside : Outside} {m : ServerMemory} {call : Call}
  {check : Option RateLimiter.Check} {n work : ℕ} {left : Left} {task : Task}

theorem Hands.of_nothing (hlogs : left.1.logs = m.logs)
    (hbillable : Server.billable left.1 = Server.billable m) (hpending : pending left.2 = 0) :
    Hands m left :=
  ⟨hlogs, by rw [hbillable, hpending, add_zero]⟩

theorem CallStep.hands (h : CallStep crates m call check n work left) : Hands m left := by
  cases h with
  | goesOn hstate hpasses hcall hpast hwork =>
      exact .of_nothing rfl rfl (pending_singleton_of_none (logged?_of_call hcall))
  | sends sent hstate hcheck hcall hpast hwork =>
      exact .of_nothing rfl rfl (pending_singleton_of_none (logged?_of_call hcall))
  | ends hstate remaining elapsed returned =>
      exact ⟨finish_logs _ _ _ _, billable_finish remaining elapsed returned⟩
  | refused hstate response =>
      refine .of_nothing rfl (billable_respond_of_none ?_) rfl
      rcases call with ⟨route | -, headers, body, clientKey, shown⟩ <;> rfl
  | panicked hstate => exact .of_nothing rfl rfl rfl

theorem hands_advance (h : task.logged? = none) : Hands m (advance crates outside m task) := by
  cases hcall : task.call? with
  | some call => exact (callStep_advance crates outside m hcall).hands
  | none =>
      have hidle := idleStep_advance crates outside m hcall
      generalize advance crates outside m task = left at hidle ⊢
      cases hidle with
      | records record => cases h
      | fails headers change db response =>
          exact .of_nothing rfl (billable_respond_of_none rfl) rfl
      | changes headers change db => exact .of_nothing rfl rfl rfl
      | updates headers change => exact .of_nothing rfl (billable_respond_of_none rfl) rfl
      | panics headers query => exact .of_nothing rfl rfl rfl
      | replies headers query result =>
          exact .of_nothing rfl (billable_respond_of_none rfl) rfl

theorem hands_arriving (request : Request) : Hands m (arriving m request) := by
  cases request with
  | proxy route headers body =>
      rw [arriving]
      split
      · refine .of_nothing rfl (billable_respond_of_none ?_) rfl
        cases route <;> rfl
      · exact .of_nothing rfl rfl rfl
  | change headers change =>
      rw [arriving]
      split
      · exact .of_nothing rfl (billable_respond_of_none rfl) rfl
      · exact .of_nothing rfl rfl rfl
  | query headers query =>
      rw [arriving]
      split
      · exact .of_nothing rfl (billable_respond_of_none rfl) rfl
      · exact .of_nothing rfl rfl rfl
  | health => exact .of_nothing rfl (billable_respond_of_none rfl) rfl

end Step

section Kept

variable {crates : Crates} {s s' t : Server} {a : ServerAction} {logs : RequestLogs}
  {state : AppState} {ops : List ServerAction}

/-- What a step hands to a task is on record as it becomes due. -/
theorem Hands.kept {left : Left} {others : Multiset Task} (h : Hands s.memory left)
    (hothers : pending others = pending s.threads) (hinserts : Inserts s a) :
    Ledger.Kept (Inserts s a) (onRecord s) (due logs s)
      (onRecord ⟨left.1, left.2 + others⟩) (due logs ⟨left.1, left.2 + others⟩) := by
  refine Or.inl ⟨hinserts, ?_⟩
  simp only [onRecord, due, h.logs, h.billable, pending_add, hothers]
  abel

/-- An insertion moves an entry into the log, or loses it. -/
theorem kept_recording {record : RecordRequest} (outside : Outside)
    {others : Multiset Task} (hthreads : s.threads = .recording record ::ₘ others) :
    Ledger.Kept (Inserts s (.advance (.recording record) outside)) (onRecord s) (due logs s)
      (onRecord ⟨(recording outside s.memory record).1, others⟩)
      (due logs ⟨(recording outside s.memory record).1, others⟩) := by
  have hbefore : onRecord s = ↑(s.memory.logs.rows.map RequestLogRow.entry)
      + ({record.entry} + pending others) := by
    rw [onRecord, hthreads, pending_cons_of_some rfl]
  rw [Inserts, hbefore]
  simp only [recording, onRecord, due]
  rcases hrecord : Db.recordRequest outside.reply outside.id s.memory.logs record with
    ⟨logs', e | u⟩
  · have hsame : logs' = s.memory.logs := Db.logs_of_recordRequest_error hrecord
    refine Or.inr ⟨Bool.false_ne_true, record.entry, ?_⟩
    rw [hsame]
    show _ + billable s.memory + _ = _ + billable s.memory + _ + _
    abel
  · obtain ⟨row, hrows, hentry⟩ := Db.recordRequest_ok hrecord
    refine Or.inl ⟨rfl, ?_⟩
    rw [hrows, List.map_append, ← Multiset.coe_add, List.map_singleton, hentry,
      Multiset.coe_singleton]
    show _ + billable s.memory + _ = _ + billable s.memory + _
    abel

/-- **What a step does to the account.** -/
theorem kept_step (h : s.step crates a = some s') :
    Ledger.Kept (Inserts s a) (onRecord s) (due logs s) (onRecord s') (due logs s') := by
  cases a with
  | arrive request =>
      rw [step_arrive.mp h]
      exact (hands_arriving request).kept rfl trivial
  | advance task outside =>
      obtain ⟨others, hthreads, rfl⟩ := step_advance.mp h
      cases hentry : task.logged? with
      | none =>
          have hothers : pending others = pending s.threads := by
            rw [hthreads, pending_cons_of_none hentry]
          refine (hands_advance hentry).kept hothers ?_
          cases task <;> trivial
      | some entry =>
          cases task with
          | recording record =>
              have hkept : Ledger.Kept _ _ (due logs s) _ _ :=
                kept_recording outside hthreads
              rwa [← zero_add others] at hkept
          | limiting call => cases hentry
          | retrying call remaining request attempt => cases hentry
          | retried call remaining request attempt acquired => cases hentry
          | streaming call remaining request => cases hentry
          | streamed call remaining acquired => cases hentry
          | reading call remaining returned => cases hentry
          | changing headers change => cases hentry
          | updating headers change => cases hentry
          | querying headers query => cases hentry
  | leave task =>
      obtain ⟨others, hthreads, hawaits, rfl⟩ := step_leave.mp h
      -- a task that records is not its client's
      have hentry : task.logged? = none := by cases task <;> first | rfl | cases hawaits
      refine Or.inl ⟨trivial, ?_⟩
      rw [onRecord, hthreads, pending_cons_of_none hentry]
      rfl
  | recover recovery =>
      obtain ⟨-, rfl⟩ := step_recover.mp h
      exact Or.inl ⟨trivial, rfl⟩

/-- No step takes a row away. -/
theorem rows_step (h : s.step crates a = some s') :
    s.memory.logs.rows <+: s'.memory.logs.rows := by
  cases a with
  | arrive request =>
      rw [step_arrive.mp h]
      exact (congrArg KeyedTable.rows (hands_arriving request).logs).symm ▸ List.prefix_rfl
  | advance task outside =>
      obtain ⟨others, hthreads, rfl⟩ := step_advance.mp h
      cases hentry : task.logged? with
      | none =>
          have hlogs : (advance crates outside s.memory task).1.logs = s.memory.logs :=
            (hands_advance hentry).logs
          exact (congrArg KeyedTable.rows hlogs).symm ▸ List.prefix_rfl
      | some entry =>
          cases task <;> first
            | exact Db.rows_prefix_recordRequest _ _ _ _
            | cases hentry
  | leave task =>
      obtain ⟨others, hthreads, -, rfl⟩ := step_leave.mp h
      exact List.prefix_rfl
  | recover recovery =>
      obtain ⟨-, rfl⟩ := step_recover.mp h
      exact List.prefix_rfl

/-- **The log is put to account.**  The rows it gains in a run, and those its tasks are
about to insert, are rows of answers, of each at most one; and of each exactly one if and
only if no insertion failed on the way. -/
theorem billed (hrun : Runs.run (step crates) (start state logs) ops = some t) :
    ∃ gained, t.memory.logs.rows = logs.rows ++ gained ∧
      ↑(gained.map RequestLogRow.entry) + pending t.threads ≤ billable t.memory ∧
      (↑(gained.map RequestLogRow.entry) + pending t.threads = billable t.memory ↔
        Runs.Along (step crates) Inserts (start state logs) ops) := by
  have hrows : logs.rows <+: t.memory.logs.rows := Runs.run_invariant
    (I := fun s : Server => logs.rows <+: s.memory.logs.rows)
    (fun s a s' hprefix hstep => hprefix.trans (rows_step hstep)) List.prefix_rfl hrun
  obtain ⟨gained, hgained⟩ := hrows
  obtain ⟨hle, hiff⟩ : onRecord t ≤ due logs t ∧
      (onRecord t = due logs t ↔ Runs.Along (step crates) Inserts (start state logs) ops) :=
    Ledger.run_kept_iff onRecord (due logs) (fun s a s' hstep => kept_step hstep) rfl hrun
  have hrecord : onRecord t = ↑(logs.rows.map RequestLogRow.entry)
      + (↑(gained.map RequestLogRow.entry) + pending t.threads) := by
    rw [onRecord, ← hgained, List.map_append, ← Multiset.coe_add, add_assoc]
  rw [hrecord, due, add_le_add_iff_left] at hle
  rw [hrecord, due, add_right_inj] at hiff
  exact ⟨gained, hgained.symm, hle, hiff⟩

/-- A chat completion is answered, and recorded. -/
def recordedChat : List ServerAction :=
  [.arrive chat.request, .advance (.limiting chat) .smooth,
    .advance (.retrying chat 59 chatRequest 0) .smooth,
    .advance (.retried chat 59 chatRequest 0 ⟨"tp-1"⟩) .smooth,
    .advance (.reading chat 59 (.whole (.ok ([], .OK, [])))) .smooth,
    .advance (.recording (Serving.callRecord .chatCompletions "mimo-v2")) .smooth]

theorem billed_chat :
    ∃ t, Runs.run (step .small) (start Serving.started .empty) recordedChat = some t ∧
      ∃ gained, t.memory.logs.rows = [] ++ gained ∧
        ↑(gained.map RequestLogRow.entry) + pending t.threads ≤ billable t.memory ∧
        (↑(gained.map RequestLogRow.entry) + pending t.threads = billable t.memory ↔
          Runs.Along (step .small) Inserts (start Serving.started .empty) recordedChat) := by
  have hsome : (Runs.run (step .small) (start Serving.started .empty)
      recordedChat).isSome = true := by decide +kernel
  obtain ⟨t, hrun⟩ := Option.isSome_iff_exists.mp hsome
  exact ⟨t, hrun, billed hrun⟩

end Kept

/-! ## Answers -/

/-- The calls that are under way. -/
def calls (tasks : Multiset Task) : Multiset Call := tasks.filterMap Task.call?

/-- The calls that the provider answered. -/
def answered (m : ServerMemory) : Multiset Call := ↑(m.responses.filterMap Served.call?)

/-- The calls that arrive in a step with a client key that is in the cache. -/
def admitted (s : Server) : ServerAction → Multiset Call
  | .arrive (.proxy route headers body) =>
      ↑((Call.of? route headers body).filter fun call =>
        call.clientKey.key ∈ s.memory.state.clientKeys).toList
  | .arrive (.change _ _) | .arrive (.query _ _) | .arrive .health => 0
  | .advance _ _ | .leave _ | .recover _ => 0

section Answers

variable {crates : Crates} {outside : Outside} {m : ServerMemory} {call : Call}
  {check : Option RateLimiter.Check} {n work : ℕ} {left : Left} {task : Task}
  {tasks others : Multiset Task} {request : Request}

theorem calls_add : calls (tasks + others) = calls tasks + calls others :=
  Multiset.filterMap_add _ _ _

theorem calls_cons : calls (task ::ₘ tasks) = ↑task.call?.toList + calls tasks := by
  cases h : task.call? with
  | none => exact (Multiset.filterMap_cons_none _ _ h).trans (zero_add _).symm
  | some call =>
      exact (Multiset.filterMap_cons_some _ _ _ h).trans (Multiset.singleton_add _ _).symm

theorem answered_respond (response : ServerResponse) :
    answered (m.respond request response)
      = answered m + ↑(Served.call? ⟨request, response⟩).toList := by
  rw [answered, ServerMemory.respond, List.filterMap_append, ← Multiset.coe_add, answered]
  cases h : Served.call? ⟨request, response⟩ <;> simp [h]

theorem answered_respond_of_none {response : ServerResponse}
    (h : Served.call? ⟨request, response⟩ = none) :
    answered (m.respond request response) = answered m := by
  rw [answered_respond, h]
  exact add_zero _

/-- A response to a call is an answer to that call, or none at all. -/
theorem call?_request (call : Call) (response : ServerResponse) :
    Served.call? ⟨call.request, response⟩ = none ∨
      Served.call? ⟨call.request, response⟩ = some call := by
  obtain ⟨route, headers, body, clientKey, shown⟩ := call
  cases response with
  | proxied reply => exact Or.inr (Call.of?_eq_some shown)
  | json response => exact Or.inl rfl
  | text response => exact Or.inl rfl
  | admin reply => exact Or.inl rfl
  | empty status => exact Or.inl rfl

/-- What is answered, and what is under way. -/
def taken (m : ServerMemory) (tasks : Multiset Task) : Multiset Call := answered m + calls tasks

theorem taken_zero : taken m 0 = answered m := add_zero _

theorem taken_singleton (h : task.call? = some call) :
    taken m {task} = answered m + {call} := by
  rw [taken, ← Multiset.cons_zero, calls_cons, h]
  rfl

theorem taken_respond_le (response : ServerResponse) :
    taken (m.respond call.request response) 0 ≤ answered m + {call} := by
  rw [taken_zero, answered_respond]
  rcases call?_request call response with hnone | hsome
  · rw [hnone]
    exact add_le_add_right (Multiset.zero_le _) _
  · rw [hsome]
    exact le_rfl

/-- A call goes on, or it is answered, or not. -/
theorem CallStep.taken_le (h : CallStep crates m call check n work left) :
    taken left.1 left.2 ≤ answered m + {call} := by
  cases h with
  | goesOn hstate hpasses hcall hpast hwork => exact (taken_singleton hcall).le
  | sends sent hstate hcheck hcall hpast hwork => exact (taken_singleton hcall).le
  | @ends state hstate remaining elapsed returned =>
      have hcalls : calls (finish { m with state } call.request remaining
          (call.handled crates elapsed returned)).2 = 0 := by
        rw [finish_tasks]
        cases (call.handled crates elapsed returned).spawned <;> rfl
      rw [taken, hcalls]
      rcases finish_memory { m with state } call.request remaining
        (call.handled crates elapsed returned) with heq | ⟨response, heq⟩
      · rw [heq]
        exact add_le_add_right (Multiset.zero_le _) _
      · rw [heq]
        exact taken_respond_le response
  | refused hstate response => exact taken_respond_le _
  | panicked hstate => exact add_le_add_right (Multiset.zero_le _) _

/-- What is not part of a call answers none. -/
theorem taken_advance_of_none (h : task.call? = none) :
    taken (advance crates outside m task).1 (advance crates outside m task).2 = answered m := by
  have hidle := idleStep_advance crates outside m h
  generalize advance crates outside m task = left at hidle ⊢
  cases hidle with
  | records record => exact add_zero _
  | fails headers change db response =>
      exact (add_zero _).trans (answered_respond_of_none rfl)
  | changes headers change db => exact add_zero _
  | updates headers change => exact (add_zero _).trans (answered_respond_of_none rfl)
  | panics headers query => exact add_zero _
  | replies headers query result => exact (add_zero _).trans (answered_respond_of_none rfl)

/-- **What goes on to a handler is what arrives with a client key of the cache.** -/
theorem calls_arriving (s : Server) (request : Request) :
    calls (arriving s.memory request).2 = admitted s (.arrive request) := by
  cases request with
  | proxy route headers body =>
      rw [arriving, admitted]
      split
      · rename_i e herror
        refine (Multiset.coe_eq_zero _).mpr (Option.toList_eq_nil_iff.mpr ?_) |>.symm
        rw [Option.filter_eq_none_iff]
        intro call hcall hkey
        cases hshown : Auth.extractKey headers with
        | none =>
            rw [Call.of?_eq_none hshown] at hcall
            cases hcall
        | some key =>
            rw [Call.of?_eq_some hshown] at hcall
            cases hcall
            have hok : Auth.auth s.memory.state.clientKeys headers = .ok ⟨key⟩ :=
              Auth.auth_eq_ok_iff.mpr
                ⟨of_decide_eq_true hkey, Auth.extractKey_eq_some_iff.mp hshown⟩
            cases herror.symm.trans hok
      · rename_i clientKey hauth
        have hmem := (Auth.auth_eq_ok_iff.mp hauth).1
        rw [Call.of?_eq_some (Auth.extractKey_of_auth hauth),
          Option.filter_some_pos (by exact decide_eq_true hmem)]
        rfl
  | change headers change =>
      rw [arriving, admitted]
      split <;> rfl
  | query headers query =>
      rw [arriving, admitted]
      split <;> rfl
  | health => rfl

/-- A request that arrives is not answered by the provider. -/
theorem answered_arriving : answered (arriving m request).1 = answered m := by
  cases request with
  | proxy route headers body =>
      rw [arriving]
      split
      · exact answered_respond_of_none rfl
      · rfl
  | change headers change =>
      rw [arriving]
      split
      · exact answered_respond_of_none rfl
      · rfl
  | query headers query =>
      rw [arriving]
      split
      · exact answered_respond_of_none rfl
      · rfl
  | health => exact answered_respond_of_none rfl

end Answers

section Runs

variable {crates : Crates} {s s' t : Server} {a : ServerAction} {logs : RequestLogs}
  {state : AppState} {ops : List ServerAction}

/-- **What a step does to the calls.** -/
theorem taken_step (h : s.step crates a = some s') :
    taken s'.memory s'.threads ≤ taken s.memory s.threads + admitted s a := by
  cases a with
  | arrive request =>
      rw [step_arrive.mp h, taken, answered_arriving, calls_add, taken, calls_arriving]
      exact le_of_eq (by abel)
  | advance task outside =>
      obtain ⟨others, hthreads, rfl⟩ := step_advance.mp h
      have htaken : taken (advance crates outside s.memory task).1
          (advance crates outside s.memory task).2
          ≤ answered s.memory + ↑task.call?.toList := by
        cases hcall : task.call? with
        | some call => exact (callStep_advance crates outside s.memory hcall).taken_le
        | none => exact (taken_advance_of_none hcall).trans_le (Multiset.le_add_right _ _)
      rw [taken, calls_add, ← add_assoc, taken, hthreads, calls_cons, ← add_assoc, admitted,
        add_zero]
      exact add_le_add_left htaken _
  | leave task =>
      obtain ⟨others, hthreads, -, rfl⟩ := step_leave.mp h
      rw [taken, taken, hthreads, calls_cons, admitted, add_zero]
      exact add_le_add_right (Multiset.le_add_left _ _) _
  | recover recovery =>
      obtain ⟨-, rfl⟩ := step_recover.mp h
      exact Multiset.le_add_right _ _

/-- **Every answer of the provider goes to a call of its own**, and this call was let
through with a client key that was in the cache as it arrived. -/
theorem answered_le_admitted (hrun : Runs.run (step crates) (start state logs) ops = some t) :
    answered t.memory + calls t.threads
      ≤ Runs.credits (step crates) admitted (start state logs) ops := by
  have hcredits : taken t.memory t.threads ≤ taken (start state logs).memory 0
      + Runs.credits (step crates) admitted (start state logs) ops :=
    Runs.run_le_credits (fun s : Server => taken s.memory s.threads)
      (fun s a s' hstep => taken_step hstep) hrun
  exact hcredits.trans_eq (zero_add _)

theorem answered_le_admitted_chat :
    ∃ t, Runs.run (step .small) (start Serving.started .empty) recordedChat = some t ∧
      answered t.memory + calls t.threads ≤ Runs.credits (step .small) admitted
        (start Serving.started .empty) recordedChat := by
  have hsome : (Runs.run (step .small) (start Serving.started .empty)
      recordedChat).isSome = true := by decide +kernel
  obtain ⟨t, hrun⟩ := Option.isSome_iff_exists.mp hsome
  exact ⟨t, hrun, answered_le_admitted hrun⟩

end Runs

end Server

end XiaomiProxy
