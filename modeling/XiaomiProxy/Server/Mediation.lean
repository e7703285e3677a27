import XiaomiProxy.Proxy.PoolRuns
import XiaomiProxy.Server

/-!
# Who can change keys

Three places hold keys: the two tables, the cache of client keys, and the pool.  The
clients' traffic goes through all of them, and the admin routes stand open to anybody who
can reach them.  Still they depend on nothing but the changes that `basic_auth` let
through (`exists_run_of_changes`): leave out all other steps of a run — requests that were
turned away, calls in whatever stage, queries, records, recoveries — and the same keys are
left, with the same changes under way and the same responses to them.

So nobody who does not present the configured text changes a key (`keyView_unchanged`).
-/

namespace XiaomiProxy

/-! ## What is seen of the keys -/

namespace KeyPool

/-- A key and its weight. -/
def entry (e : PooledKey) : String × UInt32 := (e.key, e.weight)

/-- Give a key a weight: to the first entry that has it, or to one at the end. -/
def assign (key : String) (weight : UInt32) : List (String × UInt32) → List (String × UInt32)
  | [] => [(key, weight)]
  | e :: es => if e.1 = key then (key, weight) :: es else e :: assign key weight es

section Entries

variable {p : KeyPool} {key : String} {weight : UInt32}

theorem assign_of_forall_ne {es : List (String × UInt32)} (h : ∀ e ∈ es, e.1 ≠ key) :
    assign key weight es = es ++ [(key, weight)] := by
  induction es with
  | nil => rfl
  | cons e es ih =>
      rw [List.forall_mem_cons] at h
      rw [assign, if_neg h.1, ih h.2, List.cons_append]

theorem assign_append_cons {before after : List (String × UInt32)} {e : String × UInt32}
    (hbefore : ∀ e ∈ before, e.1 ≠ key) (hkey : e.1 = key) :
    assign key weight (before ++ e :: after) = before ++ (key, weight) :: after := by
  induction before with
  | nil => rw [List.nil_append, assign, if_pos hkey, List.nil_append]
  | cons e' before ih =>
      rw [List.forall_mem_cons] at hbefore
      rw [List.cons_append, assign, if_neg hbefore.1, ih hbefore.2, List.cons_append]

/-- What `add_key` does to the entries does not depend on their health. -/
theorem column_addKey : column entry (p.addKey key weight)
    = assign key weight (column entry p) := by
  cases hentry : p.entryOf? key with
  | none =>
      have habsent : ∀ e ∈ column entry p, e.1 ≠ key := by
        intro e he
        obtain ⟨k, hk, rfl⟩ := List.mem_map.mp he
        exact entryOf?_eq_none.mp hentry k hk
      rw [addKey_of_none hentry, assign_of_forall_ne habsent]
      simp [column, SharedVec.push, entry, PooledKey.fresh]
  | some k =>
      obtain ⟨hkey, before, after, hcells, hbefore⟩ := List.find?_eq_some_iff_append.mp hentry
      have hkey : k.val.key = key := by simpa using hkey
      have hothers : ∀ e ∈ before.map fun l => entry l.val, e.1 ≠ key := by
        intro e he
        obtain ⟨l, hl, rfl⟩ := List.mem_map.mp he
        simpa [entry] using hbefore l hl
      rw [addKey_of_some hentry]
      simp only [column, SharedVec.cells_modify_of_split hcells, hcells, List.map_append,
        List.map_cons]
      rw [assign_append_cons hothers hkey]
      simp [entry, PooledKey.reweigh, hkey]

/-- What `remove_key` does to the entries. -/
theorem column_removeKey : column entry (p.removeKey key)
    = (column entry p).filter fun e => e.1 ≠ key := by
  rw [column, removeKey, SharedVec.retain_cells, column, List.filter_map]
  rfl

end Entries

end KeyPool

/-- The keys a program holds, and what it is configured with. -/
structure KeyView where
  config : Config
  db : Db
  clientKeys : Finset String
  entries : List (String × UInt32)
  deriving DecidableEq

def AppState.keyView (state : AppState) : KeyView where
  config := state.config
  db := state.db
  clientKeys := state.clientKeys
  entries := KeyPool.column KeyPool.entry state.keyPool

/-- The change a task is about to make. -/
def Task.change? : Task → Option Request
  | .changing headers change | .updating headers change => some (.change headers change)
  | .limiting _ | .retrying _ _ _ _ | .retried _ _ _ _ _ => none
  | .streaming _ _ _ | .streamed _ _ _ | .reading _ _ _ => none
  | .recording _ | .querying _ _ => none

/-- A request for a change that `basic_auth` lets through. -/
def Request.authorized (admin : AdminConfig) : Request → Bool
  | .change headers _ => (BasicAuth.basicAuth admin headers).isOk
  | .proxy _ _ _ | .query _ _ | .health => false

/-- A step of a change that was let through. -/
def ServerAction.changes (admin : AdminConfig) : ServerAction → Bool
  | .arrive request => request.authorized admin
  | .advance task _ | .leave task => task.change?.isSome
  | .recover _ => false

namespace Server

section View

variable {state state' : AppState}

theorem keyView_setPool {keyPool : KeyPool}
    (h : KeyPool.column KeyPool.entry keyPool = KeyPool.column KeyPool.entry state.keyPool) :
    AppState.keyView { state with keyPool } = state.keyView := by
  simp only [AppState.keyView, h]

/-- The clients' traffic does not touch the keys. -/
theorem keyView_serves {check : Option RateLimiter.Check} (h : Serves state check state') :
    state'.keyView = state.keyView := by
  cases h with
  | same => rfl
  | checked c => rfl
  | acquired => exact keyView_setPool (state.keyPool.column_acquireKey fun _ => rfl)
  | succeeded acquired =>
      exact keyView_setPool (state.keyPool.column_reportSuccess (fun _ => rfl) acquired)
  | failed now acquired =>
      exact keyView_setPool (state.keyPool.column_reportFailure (fun _ => rfl)
        (fun _ => rfl) now acquired)

/-- What a change makes of the keys depends on the keys alone. -/
theorem keyView_update (h : state.keyView = state'.keyView) (change : AdminChange) :
    (change.update state).keyView = (change.update state').keyView := by
  obtain ⟨hconfig, hdb, hclientKeys, hentries⟩ := KeyView.mk.inj h
  rcases change with request | payload | ⟨key, weight⟩ | key
  · simp only [AdminChange.update, AppState.keyView, hconfig, hdb, hclientKeys, hentries]
  · simp only [AdminChange.update, AppState.keyView, KeyPool.column_addKey, hconfig, hdb,
      hclientKeys, hentries]
  · simp only [AdminChange.update, AppState.keyView, KeyPool.column_addKey, hconfig, hdb,
      hclientKeys, hentries]
  · simp only [AdminChange.update, AppState.keyView, KeyPool.column_removeKey, hconfig, hdb,
      hclientKeys, hentries]

end View

/-! ## The steps of changes, and all others -/

/-- The responses to changes that were let through. -/
def answers (admin : AdminConfig) (m : ServerMemory) : List Served :=
  m.responses.filter fun served => served.request.authorized admin

/-- The changes under way. -/
def underWay (tasks : Multiset Task) : Multiset Task :=
  tasks.filter fun task => task.change?.isSome = true

section Left

variable {crates : Crates} {outside : Outside} {admin : AdminConfig} {m : ServerMemory}
  {left : Left}

/-- A step that has nothing to do with changes: it leaves the keys, the changes and the
responses to them alone. -/
structure Hidden (admin : AdminConfig) (m : ServerMemory) (left : Left) : Prop where
  keys : left.1.state.keyView = m.state.keyView
  answers : answers admin left.1 = answers admin m
  underWay : underWay left.2 = 0

theorem answers_respond {request : Request} {response : ServerResponse} :
    answers admin (m.respond request response)
      = answers admin m ++ if request.authorized admin then [⟨request, response⟩] else [] := by
  cases h : request.authorized admin <;>
    simp [answers, ServerMemory.respond, List.filter_append, h]

theorem answers_respond_of_not {request : Request} {response : ServerResponse}
    (h : request.authorized admin = false) :
    answers admin (m.respond request response) = answers admin m := by
  rw [answers_respond, h]
  simp

theorem underWay_singleton {task : Task} (h : task.change? = none) :
    underWay {task} = 0 := by
  simp [underWay, Multiset.filter_singleton, h]

/-- A task of a call is not one of a change. -/
theorem change?_of_call? {task : Task} {call : Call} (h : task.call? = some call) :
    task.change? = none := by
  cases task <;> first | rfl | cases h

theorem hidden_finish {state : AppState} {call : Call} {remaining : UInt32}
    {handled : Handled} (hkeys : state.keyView = m.state.keyView) :
    Hidden admin m (finish { m with state } call.request remaining handled) where
  keys := by
    rw [finish_state]
    exact hkeys
  answers := by
    rcases finish_memory { m with state } call.request remaining handled with
      heq | ⟨response, heq⟩ <;> rw [heq]
    · rfl
    · exact answers_respond_of_not rfl
  underWay := by
    rw [finish_tasks]
    cases handled.spawned with
    | none => rfl
    | some record => exact underWay_singleton rfl

/-- Calls are hidden. -/
theorem CallStep.hidden {call : Call} {check : Option RateLimiter.Check} {n work : ℕ}
    (h : CallStep crates m call check n work left) : Hidden admin m left := by
  cases h with
  | goesOn hstate hpasses hcall hpast hwork =>
      exact ⟨keyView_serves hstate, rfl, underWay_singleton (change?_of_call? hcall)⟩
  | sends sent hstate hcheck hcall hpast hwork =>
      exact ⟨keyView_serves hstate, rfl, underWay_singleton (change?_of_call? hcall)⟩
  | ends hstate remaining elapsed returned => exact hidden_finish (keyView_serves hstate)
  | refused hstate response =>
      exact ⟨keyView_serves hstate, answers_respond_of_not rfl, rfl⟩
  | panicked hstate => exact ⟨keyView_serves hstate, rfl, rfl⟩

/-- So are queries and records. -/
theorem hidden_advance {task : Task} (h : task.change? = none) :
    Hidden admin m (advance crates outside m task) := by
  cases hcall : task.call? with
  | some call => exact (callStep_advance crates outside m hcall).hidden
  | none =>
      have hidle := idleStep_advance crates outside m hcall
      generalize advance crates outside m task = left at hidle ⊢
      cases hidle with
      | records record => exact ⟨rfl, rfl, rfl⟩
      | fails headers change db response => cases h
      | changes headers change db => cases h
      | updates headers change => cases h
      | panics headers query => exact ⟨rfl, rfl, rfl⟩
      | replies headers query result => exact ⟨rfl, answers_respond_of_not rfl, rfl⟩

/-- A request that is turned away is hidden, and so is one that is not for a change. -/
theorem hidden_arriving {request : Request} (hadmin : m.state.config.admin = admin)
    (h : request.authorized admin = false) : Hidden admin m (arriving m request) := by
  cases request with
  | proxy route headers body =>
      rw [arriving]
      split
      · exact ⟨rfl, answers_respond_of_not rfl, rfl⟩
      · exact ⟨rfl, rfl, underWay_singleton rfl⟩
  | change headers change =>
      rw [arriving, hadmin]
      split
      · exact ⟨rfl, answers_respond_of_not h, rfl⟩
      · rename_i hok
        rw [Request.authorized, hok] at h
        cases h
  | query headers query =>
      rw [arriving]
      split
      · exact ⟨rfl, answers_respond_of_not rfl, rfl⟩
      · exact ⟨rfl, rfl, underWay_singleton rfl⟩
  | health => exact ⟨rfl, answers_respond_of_not rfl, rfl⟩

end Left

/-! ## A run, and the run of its changes -/

/-- Two memories with the same keys; the second one has seen nothing but changes. -/
structure Agrees (admin : AdminConfig) (m m' : ServerMemory) : Prop where
  configured : m.state.config.admin = admin
  keys : m.state.keyView = m'.state.keyView
  responses : m'.responses = answers admin m

/-- A program, and one in which nothing but its changes happened. -/
structure Follows (admin : AdminConfig) (s r : Server) : Prop where
  memory : Agrees admin s.memory r.memory
  threads : r.threads = underWay s.threads
  authorized : ∀ task ∈ r.threads, ∀ request, task.change? = some request →
    request.authorized admin = true

section Follows

variable {crates : Crates} {outside : Outside} {admin : AdminConfig} {m m' : ServerMemory}
  {left : Left} {s s' r : Server} {task : Task} {request : Request}

theorem Agrees.of_hidden (hagrees : Agrees admin m m') (h : Hidden admin m left) :
    Agrees admin left.1 m' where
  configured := by
    rw [← hagrees.configured]
    exact congrArg (fun keys => keys.config.admin) h.keys
  keys := h.keys.trans hagrees.keys
  responses := hagrees.responses.trans h.answers.symm

/-- The response to a change, in both. -/
theorem Agrees.respond (hagrees : Agrees admin m m')
    (hauthorized : request.authorized admin = true) (response : ServerResponse) :
    Agrees admin (m.respond request response) (m'.respond request response) where
  configured := hagrees.configured
  keys := hagrees.keys
  responses := by
    rw [answers_respond, hauthorized, if_pos rfl, ← hagrees.responses]
    rfl

/-- The statement of a change sees the tables alone. -/
theorem Agrees.setDb (hagrees : Agrees admin m m') (db : Db) :
    Agrees admin (m.setDb db) (m'.setDb db) where
  configured := hagrees.configured
  keys := congrArg (fun keys : KeyView => { keys with db }) hagrees.keys
  responses := hagrees.responses

/-- **A step of a change does the same in both.** -/
theorem Agrees.advance (crates : Crates) (outside : Outside) (hagrees : Agrees admin m m')
    (htask : task.change? = some request)
    (hauthorized : request.authorized admin = true) :
    Agrees admin (advance crates outside m task).1 (advance crates outside m' task).1 ∧
    (advance crates outside m' task).2 = (advance crates outside m task).2 ∧
    ∀ next ∈ (advance crates outside m task).2, next.change? = some request := by
  cases task with
  | changing headers change =>
      obtain rfl := Option.some.inj htask
      have hdb : m.state.db = m'.state.db := congrArg KeyView.db hagrees.keys
      simp only [Server.advance, changing, ← hdb]
      rcases change.statement outside.reply m.state.db with ⟨db, e | -⟩
      · exact ⟨(hagrees.setDb db).respond hauthorized _, rfl, by simp⟩
      · exact ⟨hagrees.setDb db, rfl, by simp [Task.change?]⟩
  | updating headers change =>
      obtain rfl := Option.some.inj htask
      have hkeys := keyView_update hagrees.keys change
      have hconfig : (change.update m.state).config = m.state.config := by
        rcases change with request | payload | ⟨key, weight⟩ | key <;> rfl
      have hupdated : Agrees admin { m with state := change.update m.state }
          { m' with state := change.update m'.state } :=
        ⟨(congrArg Config.admin hconfig).trans hagrees.configured, hkeys, hagrees.responses⟩
      exact ⟨hupdated.respond hauthorized _, rfl, by simp [Server.advance, updating]⟩
  | limiting call => cases htask
  | retrying call remaining request attempt => cases htask
  | retried call remaining request attempt acquired => cases htask
  | streaming call remaining request => cases htask
  | streamed call remaining acquired => cases htask
  | reading call remaining returned => cases htask
  | recording record => cases htask
  | querying headers query => cases htask

/-- Changes under way, with one more task of a change. -/
theorem underWay_cons {tasks : Multiset Task} (htask : task.change? = some request) :
    underWay (task ::ₘ tasks) = task ::ₘ underWay tasks := by
  rw [underWay, Multiset.filter_cons_of_pos _ (by rw [htask]; rfl)]
  rfl

theorem underWay_cons_of_none {tasks : Multiset Task} (htask : task.change? = none) :
    underWay (task ::ₘ tasks) = underWay tasks := by
  rw [underWay, Multiset.filter_cons_of_neg _ (by rw [htask]; simp)]
  rfl

theorem underWay_add (tasks others : Multiset Task) :
    underWay (tasks + others) = underWay tasks + underWay others :=
  Multiset.filter_add _ _ _

theorem underWay_of_forall {tasks : Multiset Task}
    (h : ∀ task ∈ tasks, task.change? = some request) : underWay tasks = tasks := by
  refine Multiset.filter_eq_self.mpr fun task htask => ?_
  rw [h task htask]
  rfl

/-- A step that has nothing to do with changes is not followed. -/
theorem Follows.of_hidden {others : Multiset Task} (hfollows : Follows admin s r)
    (h : Hidden admin s.memory left) (hothers : underWay others = underWay s.threads) :
    Follows admin ⟨left.1, left.2 + others⟩ r where
  memory := hfollows.memory.of_hidden h
  threads := by
    rw [hfollows.threads, underWay_add, h.underWay, zero_add, hothers]
  authorized := hfollows.authorized

theorem follows_hidden {a : ServerAction} (hfollows : Follows admin s r)
    (hhidden : a.changes admin = false) (h : s.step crates a = some s') :
    Follows admin s' r := by
  cases a with
  | arrive request =>
      rw [step_arrive.mp h]
      exact hfollows.of_hidden (hidden_arriving hfollows.memory.configured hhidden) rfl
  | advance task outside =>
      obtain ⟨others, hthreads, rfl⟩ := step_advance.mp h
      have htask : task.change? = none := by simpa [ServerAction.changes] using hhidden
      refine hfollows.of_hidden (hidden_advance htask) ?_
      rw [hthreads, underWay_cons_of_none htask]
  | leave task =>
      obtain ⟨others, hthreads, -, rfl⟩ := step_leave.mp h
      have htask : task.change? = none := by simpa [ServerAction.changes] using hhidden
      refine ⟨hfollows.memory, ?_, hfollows.authorized⟩
      rw [hfollows.threads, hthreads, underWay_cons_of_none htask]
  | recover recovery =>
      obtain ⟨-, rfl⟩ := step_recover.mp h
      have hkeys := keyView_setPool
        (s.memory.state.keyPool.column_recover (fun _ => rfl) recovery)
      have hhidden : Hidden admin s.memory
        (s.memory.setPool (s.memory.state.keyPool.recover recovery), 0) := ⟨hkeys, rfl, rfl⟩
      exact ⟨hfollows.memory.of_hidden hhidden, hfollows.threads, hfollows.authorized⟩

/-- A step of a change is. -/
theorem follows_visible {a : ServerAction} (hfollows : Follows admin s r)
    (hvisible : a.changes admin = true) (h : s.step crates a = some s') :
    ∃ r', r.step crates a = some r' ∧ Follows admin s' r' := by
  have hadmin : r.memory.state.config.admin = admin := by
    rw [← hfollows.memory.configured]
    exact congrArg (fun keys => keys.config.admin) hfollows.memory.keys.symm
  cases a with
  | arrive request =>
      refine ⟨_, step_arrive.mpr rfl, ?_⟩
      rw [step_arrive.mp h]
      cases request with
      | change headers change =>
          have hok : BasicAuth.basicAuth admin headers = .ok () := by
            have hisOk : (BasicAuth.basicAuth admin headers).isOk = true := hvisible
            cases hresult : BasicAuth.basicAuth admin headers with
            | error response =>
                rw [hresult] at hisOk
                cases hisOk
            | ok u => rfl
          simp only [arriving, hfollows.memory.configured, hadmin, hok]
          refine ⟨hfollows.memory, ?_, ?_⟩
          · rw [Multiset.singleton_add, Multiset.singleton_add, underWay_cons rfl,
              hfollows.threads]
          · intro task htask request hchange
            rcases Multiset.mem_add.mp htask with hnew | hold
            · obtain rfl := Multiset.mem_singleton.mp hnew
              obtain rfl := Option.some.inj hchange
              exact hvisible
            · exact hfollows.authorized task hold request hchange
      | proxy route headers body => cases hvisible
      | query headers query => cases hvisible
      | health => cases hvisible
  | advance task outside =>
      obtain ⟨request, hchange⟩ := Option.isSome_iff_exists.mp hvisible
      obtain ⟨others, hthreads, rfl⟩ := step_advance.mp h
      have hwaiting : r.threads = task ::ₘ underWay others := by
        rw [hfollows.threads, hthreads, underWay_cons hchange]
      have hauthorized : request.authorized admin = true :=
        hfollows.authorized task (by rw [hwaiting]; exact Multiset.mem_cons_self _ _) request
          hchange
      obtain ⟨hagrees, hsame, hnext⟩ :=
        hfollows.memory.advance crates outside hchange hauthorized
      refine ⟨_, step_advance.mpr ⟨_, hwaiting, rfl⟩, hagrees, ?_, ?_⟩
      · rw [underWay_add, underWay_of_forall hnext, hsame]
      · intro next hmem request' hchange'
        rcases Multiset.mem_add.mp hmem with hnew | hold
        · rw [hsame] at hnew
          obtain rfl := Option.some.inj ((hnext next hnew).symm.trans hchange')
          exact hauthorized
        · refine hfollows.authorized next ?_ request' hchange'
          rw [hwaiting]
          exact Multiset.mem_cons_of_mem hold
  | leave task =>
      obtain ⟨request, hchange⟩ := Option.isSome_iff_exists.mp hvisible
      obtain ⟨others, hthreads, hawaits, rfl⟩ := step_leave.mp h
      have hwaiting : r.threads = task ::ₘ underWay others := by
        rw [hfollows.threads, hthreads, underWay_cons hchange]
      refine ⟨_, step_leave.mpr ⟨_, hwaiting, hawaits, rfl⟩, hfollows.memory, rfl, ?_⟩
      intro next hmem
      refine hfollows.authorized next ?_
      rw [hwaiting]
      exact Multiset.mem_cons_of_mem hmem
  | recover recovery => cases hvisible

end Follows

section Runs

variable {crates : Crates} {state : AppState} {logs : RequestLogs}
  {ops : List ServerAction} {t : Server}

/-- The run of the changes of a run. -/
theorem exists_follows
    (hrun : Runs.run (step crates) (start state logs) ops = some t) :
    ∃ r, Runs.run (step crates) (start state logs)
        (ops.filter (ServerAction.changes state.config.admin)) = some r ∧
      Follows state.config.admin t r := by
  refine Runs.exists_run_filter (R := Follows state.config.admin) ?_ ?_ ?_ hrun
  · intro s r a s' hfollows hvisible hstep
    exact follows_visible hfollows hvisible hstep
  · intro s r a s' hfollows hhidden hstep
    exact follows_hidden hfollows hhidden hstep
  · refine ⟨⟨rfl, rfl, rfl⟩, rfl, fun task htask => ?_⟩
    exact absurd htask (Multiset.notMem_zero task)

/-- **The keys depend on the changes that were let through, and on nothing else.**  Of any
run, the steps of these changes are a run of their own.  It leaves the same keys, the same
changes under way and the same responses to them. -/
theorem exists_run_of_changes
    (hrun : Runs.run (step crates) (start state logs) ops = some t) :
    ∃ r, Runs.run (step crates) (start state logs)
        (ops.filter (ServerAction.changes state.config.admin)) = some r ∧
      t.memory.state.keyView = r.memory.state.keyView ∧
      underWay t.threads = r.threads ∧
      answers state.config.admin t.memory = r.memory.responses := by
  obtain ⟨r, hr, hfollows⟩ := exists_follows hrun
  exact ⟨r, hr, hfollows.memory.keys, hfollows.threads.symm,
    hfollows.memory.responses.symm⟩

/-- A program with a key for each side, and credentials for its admin. -/
def guarded : AppState :=
  { Serving.started with
    config := { Serving.oneOfEach with
      admin := { username := "admin", password := "secret" } } }

/-- The header of its admin. -/
def adminHeaders : HeaderMap :=
  [(AUTHORIZATION, HeaderValue.ofText "Basic YWRtaW46c2VjcmV0")]

/-- The admin adds a client key, while somebody else tries to delete the other one. -/
def twoChanges : List ServerAction :=
  let add : AdminChange := .clientKey (.add "x" ⟨some "sk-2", none, none⟩)
  [.arrive (.change adminHeaders add), .arrive (.change [] (.clientKey (.delete "sk-1"))),
    .advance (.changing adminHeaders add) .smooth, .arrive .health,
    .advance (.updating adminHeaders add) .smooth]

theorem exists_run_of_changes_two :
    ∃ t, Runs.run (step .small) (start guarded .empty) twoChanges = some t ∧
      ∃ r, Runs.run (step .small) (start guarded .empty)
          (twoChanges.filter (ServerAction.changes guarded.config.admin)) = some r ∧
        t.memory.state.keyView = r.memory.state.keyView ∧
        underWay t.threads = r.threads ∧
        answers guarded.config.admin t.memory = r.memory.responses := by
  have hsome : (Runs.run (step .small) (start guarded .empty) twoChanges).isSome = true := by
    decide +kernel
  obtain ⟨t, hrun⟩ := Option.isSome_iff_exists.mp hsome
  exact ⟨t, hrun, exists_run_of_changes hrun⟩

/-- **Nobody changes a key without the configured text.** -/
theorem keyView_unchanged (hconfigured : BasicAuth.Configured state.config.admin)
    (hnobody : ∀ headers change, .arrive (.change headers change) ∈ ops →
      ¬ BasicAuth.Presents headers (Utf8.encode
        (state.config.admin.username ++ ":" ++ state.config.admin.password).toList))
    (hrun : Runs.run (step crates) (start state logs) ops = some t) :
    t.memory.state.keyView = state.keyView := by
  obtain ⟨r, hr, hfollows⟩ := exists_follows hrun
  rw [hfollows.memory.keys]
  cases hchanges : ops.filter (ServerAction.changes state.config.admin) with
  | nil =>
      rw [hchanges] at hr
      obtain rfl := Option.some.inj hr
      rfl
  | cons a as =>
      -- the first step would be one of a change that never arrived
      rw [hchanges] at hr
      obtain ⟨s', hfirst, -⟩ := Runs.run_cons_eq_some.mp hr
      have hmem : a ∈ ops.filter (ServerAction.changes state.config.admin) := by
        rw [hchanges]
        exact List.mem_cons_self
      obtain ⟨hmem, hvisible⟩ := List.mem_filter.mp hmem
      cases a with
      | arrive request =>
          cases request with
          | change headers change =>
              refine absurd ?_ (hnobody headers change hmem)
              refine (BasicAuth.admits_iff state.config.admin headers).mp ?_ hconfigured
              have hisOk : (BasicAuth.basicAuth state.config.admin headers).isOk = true :=
                hvisible
              cases hresult : BasicAuth.basicAuth state.config.admin headers with
              | error response =>
                  rw [hresult] at hisOk
                  cases hisOk
              | ok u => rfl
          | proxy route headers body => cases hvisible
          | query headers query => cases hvisible
          | health => cases hvisible
      | advance task outside =>
          obtain ⟨others, hthreads, -⟩ := step_advance.mp hfirst
          exact absurd hthreads.symm (Multiset.cons_ne_zero)
      | leave task =>
          obtain ⟨others, hthreads, -⟩ := step_leave.mp hfirst
          exact absurd hthreads.symm (Multiset.cons_ne_zero)
      | recover recovery => cases hvisible

/-- Somebody without credentials tries to delete a key of each side. -/
def twoIntrusions : List ServerAction :=
  [.arrive (.change [] (.clientKey (.delete "sk-1"))),
    .arrive (.change [(AUTHORIZATION, HeaderValue.ofText "Basic cm9vdA==")]
      (.deleteDownstreamKey "tp-1"))]

theorem keyView_unchanged_two :
    ∃ t, Runs.run (step .small) (start guarded .empty) twoIntrusions = some t ∧
      t.memory.state.keyView = guarded.keyView := by
  have hsome : (Runs.run (step .small) (start guarded .empty) twoIntrusions).isSome
      = true := by decide +kernel
  obtain ⟨t, hrun⟩ := Option.isSome_iff_exists.mp hsome
  refine ⟨t, hrun, keyView_unchanged ⟨by decide, by decide⟩ ?_ hrun⟩
  intro headers change hmem hpresents
  have hok : BasicAuth.basicAuth guarded.config.admin headers = .ok () :=
    (BasicAuth.admits_iff guarded.config.admin headers).mpr fun _ => hpresents
  have hall : twoIntrusions.all (fun a => !ServerAction.changes guarded.config.admin a)
      = true := by decide +kernel
  have hnot := List.all_eq_true.mp hall _ hmem
  rw [ServerAction.changes, Request.authorized, hok] at hnot
  cases hnot

end Runs

end Server

end XiaomiProxy
