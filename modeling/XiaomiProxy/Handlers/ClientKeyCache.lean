import XiaomiProxy.Handlers.Revocation

/-!
# The client-key cache, one request at a time

`clientKeys` is a copy in memory of the keys of the `client_keys` table.  When the
requests of the admin come one after another, it stays one: a start leaves it equal to
the table, whether it seeds or loads, and a request makes the same write in both or, if
its statement fails, in neither (`handle_error`, `handle_ok`).

A table that is loaded must hold no key with a NUL.  A local database gives such a key
back only in part, and then the cache is no copy (`not_clientKeys_coherent`).
-/

namespace XiaomiProxy

namespace ClientKeyRequest

/-- How the handler of a request answers. -/
def respond (reply : Db.Reply) (state : AppState) : ClientKeyRequest → Except AppError Unit
  | .add randStr payload =>
      (Admin.addClientKey reply randStr payload state).2.map fun _ => ()
  | .delete key => (Admin.deleteClientKey reply key state).2

/-- A request whose statement fails changes nothing, and answers with the error. -/
theorem handle_error (e : String) (state : AppState) (request : ClientKeyRequest) :
    request.handle (.error e) state = state ∧
      request.respond (.error e) state = .error (AppError.ofString e) := by
  cases request <;> exact ⟨rfl, rfl⟩

/-- A request whose statement succeeds makes its write in the table and in the cache,
and answers with success. -/
theorem handle_ok (now : String) (state : AppState) (request : ClientKeyRequest) :
    request.handle (.ok now) state
        = { state with
            db := (request.statement (.ok now) state.db).1
            clientKeys := request.updateCache state.clientKeys } ∧
      request.respond (.ok now) state = .ok () := by
  cases request <;> exact ⟨rfl, rfl⟩

end ClientKeyRequest

namespace AppState

/-- The state after a request, with the reply to its statement. -/
def clientKeyStep (s : AppState) (op : Db.Reply × ClientKeyRequest) : Option AppState :=
  some (op.2.handle op.1 s)

/-- The cache holds the keys of the table. -/
def CacheIsTable (s : AppState) : Prop := s.clientKeys = s.db.clientKeys.keys.toFinset

/-- What a request leaves alone: everything if it answers with an error, and the other
keys in any case. -/
structure Contained (s : AppState) (op : Db.Reply × ClientKeyRequest) : Prop where
  atomic : (op.2.respond op.1 s).isOk = false →
    (op.2.handle op.1 s).db = s.db ∧ (op.2.handle op.1 s).clientKeys = s.clientKeys
  others : ∀ k, k ≠ op.2.write.key →
    Auth.authorize (op.2.handle op.1 s).clientKeys (some k)
      = Auth.authorize s.clientKeys (some k)

/-- A start leaves the cache equal to the table. -/
theorem cacheIsTable_new {boot : Boot} {config : Config} {db : Db} {s : AppState}
    (h : new boot config db = .ok s) (hkeys : ∀ k ∈ db.clientKeys.keys, NoNul k) :
    s.CacheIsTable := by
  ext k
  rw [new_coherent h hkeys k, List.mem_toFinset]

/-- A request keeps the cache equal to the table. -/
theorem CacheIsTable.step {s s' : AppState} {op : Db.Reply × ClientKeyRequest}
    (h : s.CacheIsTable) (hstep : s.clientKeyStep op = some s') : s'.CacheIsTable := by
  obtain ⟨reply, request⟩ := op
  cases hstep
  rcases reply with e | now
  · rw [(request.handle_error e s).1]
    exact h
  · rw [(request.handle_ok now s).1, CacheIsTable,
      ClientKeyRace.toFinset_keys_statement, ClientKeyRace.updateCache_eq_apply, ← h]

theorem contained (s : AppState) (op : Db.Reply × ClientKeyRequest) : s.Contained op := by
  obtain ⟨reply, request⟩ := op
  rcases reply with e | now
  · obtain ⟨hsame, -⟩ := request.handle_error e s
    constructor
    · intro _
      rw [hsame]
      exact ⟨rfl, rfl⟩
    · intro k _
      rw [hsame]
  · obtain ⟨hdone, hanswer⟩ := request.handle_ok now s
    constructor
    · intro herror
      rw [hanswer] at herror
      cases herror
    · intro k hother
      -- the one write of the request is on another key
      have hmem : k ∈ Write.apply s.clientKeys request.write ↔ k ∈ s.clientKeys := by
        rw [Write.mem_apply, if_neg hother.symm]
      rw [hdone, ClientKeyRace.updateCache_eq_apply, Auth.authorize, Auth.authorize]
      simp only [hmem]

/-- **Requests that come one after another keep the cache equal to the table**, if the
start found no key with a NUL in it; one that answers with an error changes nothing, and
none changes whether another key is let through. -/
theorem clientKeys_coherent (boot : Boot) (config : Config) (db : Db) {s : AppState}
    (h : new boot config db = .ok s) (hkeys : ∀ k ∈ db.clientKeys.keys, NoNul k)
    (ops : List (Db.Reply × ClientKeyRequest)) :
    Runs.Always clientKeyStep CacheIsTable s ops ∧
      Runs.Along clientKeyStep Contained s ops :=
  ⟨Runs.always_of_invariant (fun _ _ _ hcache hstep => hcache.step hstep)
      (cacheIsTable_new h hkeys) ops,
    Runs.along_of_forall contained s ops⟩

/-- A key is added, replaced and deleted, with a failure in between, and an absent one
is deleted. -/
def fiveRequests : List (Db.Reply × ClientKeyRequest) :=
  [(.ok "now", ClientKeyRace.adding " sk-2 "), (.ok "now", ClientKeyRace.adding "sk-2"),
    (.error "disk I/O error", .delete "sk-2"), (.ok "now", .delete "sk-3"),
    (.ok "now", .delete "sk-2")]

/-- The table of a database with one client key. -/
def oneClientKey (key : String) : Db :=
  (Db.empty.addClientKey (.ok "now") key none none).1

theorem clientKeys_coherent_five :
    ∃ s, new (.succeeding "now") Config.withoutFile (oneClientKey "sk-1") = .ok s ∧
      Runs.Always clientKeyStep CacheIsTable s fiveRequests ∧
      Runs.Along clientKeyStep Contained s fiveRequests :=
  ⟨_, rfl, clientKeys_coherent (.succeeding "now") Config.withoutFile (oneClientKey "sk-1")
    rfl (by decide) fiveRequests⟩

/-- A key was added with a NUL in it.  After a restart the part before the NUL is
accepted, which is no key of the table. -/
theorem not_clientKeys_coherent :
    ∃ s, new (.succeeding "now") Config.withoutFile (oneClientKey "sk\x001") = .ok s ∧
      s.clientKeys = {"sk"} ∧ s.db.clientKeys.keys = ["sk\x001"] ∧
      ¬ Runs.Always clientKeyStep CacheIsTable s [] :=
  ⟨_, rfl, by decide, by decide, by unfold Runs.Always CacheIsTable; decide⟩

end AppState

end XiaomiProxy
