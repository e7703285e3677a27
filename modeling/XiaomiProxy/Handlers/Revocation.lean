import XiaomiProxy.Handlers.Admin
import XiaomiProxy.Lib.LastWrite
import XiaomiProxy.Lib.Runs
import XiaomiProxy.Middleware.Auth

/-!
# Concurrent client-key requests

`add_client_key` and `delete_client_key` await their statement and take the lock of the
cache afterwards, so the cache updates of several requests may come in another order
than their statements.  `ClientKeyRace` is the machine of these two steps, for any
number of requests; one request alone does what its handler does (`run_handle`).

Once all requests have completed, table and cache have had the same writes.  They agree
on a key exactly if the last write on it is of the same kind in both orders, and then
authentication accepts the key exactly if it is in the table.
-/

namespace XiaomiProxy

/-- A client-key request of the admin. -/
inductive ClientKeyRequest where
  | add (randStr : String) (payload : AddClientKeyPayload)
  | delete (key : String)
  deriving DecidableEq, Repr

namespace ClientKeyRequest

/-- The statement of a request. -/
def statement (reply : Db.Reply) (db : Db) : ClientKeyRequest → Db × Except String Unit
  | .add randStr payload =>
      db.addClientKey reply (Admin.newClientKey randStr payload) payload.description
        payload.rateLimit
  | .delete key => db.deleteClientKey reply key

/-- The cache update of a request. -/
def updateCache (clientKeys : Finset String) : ClientKeyRequest → Finset String
  | .add randStr payload => insert (Admin.newClientKey randStr payload) clientKeys
  | .delete key => clientKeys.erase key

/-- The handler of a request, both steps at once. -/
def handle (reply : Db.Reply) (state : AppState) : ClientKeyRequest → AppState
  | .add randStr payload => (Admin.addClientKey reply randStr payload state).1
  | .delete key => (Admin.deleteClientKey reply key state).1

/-- What a request does to the keys, in the table and in the cache. -/
def write : ClientKeyRequest → Write String
  | .add randStr payload => { key := Admin.newClientKey randStr payload, present := true }
  | .delete key => { key, present := false }

end ClientKeyRequest

/-- The application, and the requests whose statement succeeded and whose cache update
is still to come. -/
structure ClientKeyRace where
  state : AppState
  waiting : List ClientKeyRequest

/-- A step of a request: its statement, with the reply to it, or its cache update. -/
inductive ClientKeyStep where
  | statement (reply : Db.Reply) (request : ClientKeyRequest)
  | cache (request : ClientKeyRequest)

namespace ClientKeyRace

/-- A request whose statement fails is over. -/
def step (s : ClientKeyRace) : ClientKeyStep → Option ClientKeyRace
  | .statement reply request =>
      match request.statement reply s.state.db with
      -- a failed statement ends the request before it takes the lock
      | (db, .error _) => some { s with state := { s.state with db } }
      | (db, .ok ()) =>
          some { state := { s.state with db }, waiting := s.waiting ++ [request] }
  | .cache request =>
      if request ∈ s.waiting then
        some {
          state := { s.state with clientKeys := request.updateCache s.state.clientKeys }
          waiting := s.waiting.erase request }
      else none

/-- The steps of a request that nothing comes between. -/
def steps (reply : Db.Reply) (request : ClientKeyRequest) : List ClientKeyStep :=
  .statement reply request :: if reply.isOk then [.cache request] else []

/-- One request alone does what its handler does. -/
theorem run_handle (reply : Db.Reply) (request : ClientKeyRequest) (state : AppState) :
    Runs.run step { state, waiting := [] } (steps reply request)
      = some { state := request.handle reply state, waiting := [] } := by
  cases request <;> cases reply <;>
    simp [Runs.run, steps, step, ClientKeyRequest.statement, ClientKeyRequest.handle,
      ClientKeyRequest.updateCache, Admin.addClientKey, Admin.deleteClientKey,
      Admin.afterStatement, Db.addClientKey, Db.deleteClientKey, Db.execute,
      Except.isOk, Except.toBool]

/-! ## The two orders of writes -/

/-- The writes of the table, in the order of the statements that succeeded. -/
def tableWrites (ops : List ClientKeyStep) : List (Write String) :=
  ops.filterMap fun
    | .statement (.ok _) request => some request.write
    | _ => none

/-- The writes of the cache, in the order of the updates. -/
def cacheWrites (ops : List ClientKeyStep) : List (Write String) :=
  ops.filterMap fun
    | .cache request => some request.write
    | _ => none

/-- The keys of the table. -/
def tableKeys (s : ClientKeyRace) : Finset String := s.state.db.clientKeys.keys.toFinset

theorem toFinset_keys_statement (now : String) (request : ClientKeyRequest) (db : Db) :
    ((request.statement (.ok now) db).1.clientKeys.keys).toFinset
      = Write.apply db.clientKeys.keys.toFinset request.write := by
  ext k
  cases request with
  | add randStr payload =>
      simp [ClientKeyRequest.statement, ClientKeyRequest.write, Write.apply,
        Db.addClientKey, Db.execute, KeyedTable.mem_keys_insertOrReplace]
  | delete key =>
      simp [ClientKeyRequest.statement, ClientKeyRequest.write, Write.apply,
        Db.deleteClientKey, Db.execute, KeyedTable.mem_keys_delete]

theorem updateCache_eq_apply (clientKeys : Finset String) (request : ClientKeyRequest) :
    request.updateCache clientKeys = Write.apply clientKeys request.write := by
  cases request <;> rfl

/-- What a run has made of the table and of the cache, and which writes of the table the
cache has not had yet. -/
structure Follows (s t : ClientKeyRace) (ops : List ClientKeyStep) : Prop where
  table : t.tableKeys = (tableWrites ops).foldl Write.apply s.tableKeys
  cache : t.state.clientKeys = (cacheWrites ops).foldl Write.apply s.state.clientKeys
  waiting : (s.waiting.map ClientKeyRequest.write ++ tableWrites ops).Perm
    (cacheWrites ops ++ t.waiting.map ClientKeyRequest.write)

section Run

variable {s s' t : ClientKeyRace} {ops : List ClientKeyStep} {reply : Db.Reply}
  {request : ClientKeyRequest}

/-- A statement in front of a run. -/
theorem Follows.statement (h : Follows s' t ops)
    (hstep : s.step (.statement reply request) = some s') :
    Follows s t (.statement reply request :: ops) := by
  obtain ⟨htable, hcache, hwaiting⟩ := h
  rcases reply with e | now
  · -- the statement fails and leaves everything as it was
    have hsame : s' = s := by
      cases request <;> exact (Option.some.inj hstep).symm
    subst hsame
    exact ⟨htable, hcache, hwaiting⟩
  · have hnext : s' =
        { state := { s.state with db := (request.statement (.ok now) s.state.db).1 }
          waiting := s.waiting ++ [request] } := by
      cases request <;> exact (Option.some.inj hstep).symm
    have hkeys : s'.tableKeys = Write.apply s.tableKeys request.write := by
      rw [hnext]
      exact toFinset_keys_statement now request s.state.db
    refine ⟨?_, ?_, ?_⟩
    · rw [htable, hkeys]
      rfl
    · rw [hcache, hnext]
      rfl
    · rw [hnext, List.map_append, List.append_assoc] at hwaiting
      exact hwaiting

/-- A cache update in front of a run. -/
theorem Follows.cacheUpdate (h : Follows s' t ops)
    (hstep : s.step (.cache request) = some s') :
    Follows s t (.cache request :: ops) := by
  obtain ⟨htable, hcache, hwaiting⟩ := h
  rw [step, Option.ite_none_right_eq_some] at hstep
  obtain ⟨hmem, hstep⟩ := hstep
  cases hstep
  refine ⟨htable, ?_, ?_⟩
  · rw [hcache, updateCache_eq_apply]
    rfl
  · have hwrites := (List.perm_cons_erase hmem).map ClientKeyRequest.write
    exact (hwrites.append_right _).trans (hwaiting.cons _)

/-- **A run follows its two orders of writes.** -/
theorem follows_of_run (hrun : Runs.run step s ops = some t) : Follows s t ops := by
  induction ops generalizing s with
  | nil =>
      cases hrun
      exact ⟨rfl, rfl, by simp [tableWrites, cacheWrites]⟩
  | cons op ops ih =>
      obtain ⟨s', hstep, hrest⟩ := Runs.run_cons_eq_some.mp hrun
      cases op with
      | statement reply request => exact (ih hrest).statement hstep
      | cache request => exact (ih hrest).cacheUpdate hstep

end Run

/-- Authentication accepts exactly the keys of the table. -/
def Coherent (s : ClientKeyRace) : Prop :=
  ∀ k, (Auth.authorize s.state.clientKeys (some k)).isOk = true ↔
    k ∈ s.state.db.clientKeys.keys

/-- **Once all requests have completed, authentication goes by the table exactly if, for
every key, the last statement and the last cache update on it are of the same kind.** -/
theorem coherent_iff (boot : Boot) (config : Config) (db : Db) {s : AppState}
    (h : AppState.new boot config db = .ok s) (hkeys : ∀ k ∈ db.clientKeys.keys, NoNul k)
    (ops : List ClientKeyStep) {t : ClientKeyRace}
    (hrun : Runs.run step { state := s, waiting := [] } ops = some t)
    (hcompleted : t.waiting = []) :
    t.Coherent ↔ ∀ k, Write.last k (tableWrites ops) = Write.last k (cacheWrites ops) := by
  obtain ⟨htable, hcache, hwaiting⟩ := follows_of_run hrun
  have hstart : s.clientKeys = tableKeys { state := s, waiting := [] } := by
    ext k
    rw [AppState.new_coherent h hkeys k, tableKeys, List.mem_toFinset]
  have hperm : (tableWrites ops).Perm (cacheWrites ops) := by
    simpa [hcompleted] using hwaiting
  refine forall_congr' ?_
  intro k
  rw [Auth.authorize_isOk_iff, hcache, ← List.mem_toFinset,
    show t.state.db.clientKeys.keys.toFinset = t.tableKeys from rfl, htable, hstart]
  exact iff_comm.trans (Write.mem_iff_mem_iff_last_eq hperm k _)

/-- A request to add a key. -/
def adding (key : String) : ClientKeyRequest :=
  .add "" { key := some key, description := none, rateLimit := none }

/-- A key is added and deleted, and the cache updates come in the order of the
statements. -/
def inOrder : List ClientKeyStep :=
  [.statement (.ok "now") (adding "sk-1"), .statement (.ok "now") (.delete "sk-1"),
    .cache (adding "sk-1"), .cache (.delete "sk-1")]

theorem coherent_in_order :
    ∃ s t, AppState.new (.succeeding "now") Config.withoutFile .empty = .ok s ∧
      Runs.run step { state := s, waiting := [] } inOrder = some t ∧ t.Coherent :=
  ⟨_, _, rfl, rfl, (coherent_iff (.succeeding "now") Config.withoutFile .empty rfl
    (List.forall_mem_nil _) inOrder rfl rfl).mpr fun _ => rfl⟩

/-- The deletion overtakes the addition at the cache: the row is gone, and the key is
accepted. -/
theorem revoked_key_accepted :
    ∃ s t, AppState.new (.succeeding "now") Config.withoutFile .empty = .ok s ∧
      Runs.run step { state := s, waiting := [] }
        [.statement (.ok "now") (adding "sk-1"), .statement (.ok "now") (.delete "sk-1"),
          .cache (.delete "sk-1"), .cache (adding "sk-1")] = some t ∧
      t.waiting = [] ∧ "sk-1" ∉ t.state.db.clientKeys.keys ∧
      (Auth.authorize t.state.clientKeys (some "sk-1")).isOk = true ∧ ¬ t.Coherent := by
  refine ⟨_, _, rfl, rfl, rfl, by decide, by decide, fun h => ?_⟩
  exact absurd ((h "sk-1").mp (by decide)) (by decide)

end ClientKeyRace

end XiaomiProxy
