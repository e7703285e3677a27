import XiaomiProxy.Handlers.Admin
import XiaomiProxy.Lib.Runs
import XiaomiProxy.Middleware.Auth

/-!
# The empty credential

A deployment over its whole life: starts and restarts, each with the environment and
the configuration file it finds and with the replies of the database, and the
client-key operations in between.  A start may fail half-way; its database is then what
the next start finds.

The admin handler never adds the empty key.  What is left is the start: one that finds
the table empty takes the configured keys as they are, and a blank piece of
`XIAOMI_PROXY_CLIENT_KEYS` is the empty key (`empty_mem_clientKeysOfEnv`); and one that
loads the table may read a key that begins with a NUL as the empty text.  If no start
does so, the empty key is never a client key, and authentication refuses it
(`refusesEmpty_of_run`); of a start that succeeds this is also necessary
(`refusesEmpty_start_iff`).
-/

namespace XiaomiProxy

/-- A deployment between its starts, or running. -/
inductive Deployment where
  | stopped (db : Db)
  | running (state : AppState)

/-- A start, with what it finds outside, or a client-key operation. -/
inductive DeploymentOp where
  | start (boot : Boot) (env : Config.Env)
      (file : String → Option (Except String Config))
  | addClientKey (reply : Db.Reply) (randStr : String) (payload : AddClientKeyPayload)
  | deleteClientKey (reply : Db.Reply) (key : String)

namespace Deployment

/-- The database of a deployment. -/
def db : Deployment → Db
  | .stopped db => db
  | .running state => state.db

/-- The client keys in memory, while the program runs. -/
def clientKeys : Deployment → Finset String
  | .stopped _ => ∅
  | .running state => state.clientKeys

/-- A start of the program, as in `main`: load the configuration and build the
state. -/
def start (boot : Boot) (env : Config.Env) (file : String → Option (Except String Config))
    (db : Db) : Deployment :=
  match Config.load env file with
  | .error _ => .stopped db
  | .ok config =>
      match AppState.new boot config db with
      | .error (db, _) => .stopped db
      | .ok state => .running state

/-- One step.  A start ends the program that was running; the admin operations need
one. -/
def step (d : Deployment) : DeploymentOp → Option Deployment
  | .start boot env file => some (start boot env file d.db)
  | .addClientKey reply randStr payload =>
      match d with
      | .stopped _ => none
      | .running state => some (.running (Admin.addClientKey reply randStr payload state).1)
  | .deleteClientKey reply key =>
      match d with
      | .stopped _ => none
      | .running state => some (.running (Admin.deleteClientKey reply key state).1)

/-- The empty key is no client key, and authentication refuses every request that
carries it. -/
def RefusesEmpty (d : Deployment) : Prop :=
  "" ∉ d.clientKeys ∧ ∀ headers, Auth.extractKey headers = some "" →
    Auth.auth d.clientKeys headers = .error .unauthorized

/-- If the step is a start that finds no client keys in the table, no piece between
the commas of `XIAOMI_PROXY_CLIENT_KEYS` is blank, or, when the variable is not set, the
configuration file does not list the empty key.  If it is a start that finds client keys,
none but the empty key is read as the empty text. -/
def LoadsNoEmpty (d : Deployment) : DeploymentOp → Prop
  | .start boot env file =>
      if d.db.clientKeys.rows = [] then
        match env "XIAOMI_PROXY_CLIENT_KEYS" with
        | some keysStr => ∀ piece ∈ Str.split ',' keysStr, ¬ Str.Blank piece
        | none => ∀ config,
            file ((env "XIAOMI_PROXY_CONFIG").getD "config.toml") = some (.ok config) →
              "" ∉ config.clientKeys.map ClientKeyConfig.key
      else ∀ k ∈ d.db.clientKeys.keys, boot.reading.read k = "" → k = ""
  | _ => True

/-- The blank pieces between the commas are where an empty key comes from. -/
theorem empty_mem_clientKeysOfEnv {keysStr : String} :
    "" ∈ (Config.clientKeysOfEnv keysStr).map ClientKeyConfig.key ↔
      ∃ piece ∈ Str.split ',' keysStr, Str.Blank piece := by
  simp [Config.clientKeysOfEnv, List.map_map, Str.trim_eq_empty]

/-- A configuration that is loaded lists the empty key exactly if a start from an empty
table would seed it. -/
theorem loadsNoEmpty_iff {d : Deployment} {boot : Boot} {env : Config.Env}
    {file : String → Option (Except String Config)} {config : Config}
    (hload : Config.load env file = .ok config) (hrows : d.db.clientKeys.rows = []) :
    d.LoadsNoEmpty (.start boot env file) ↔
      "" ∉ config.clientKeys.map ClientKeyConfig.key := by
  obtain ⟨read, hread, hkeys⟩ := Config.load_clientKeys hload
  rw [LoadsNoEmpty, if_pos hrows, hkeys]
  cases env "XIAOMI_PROXY_CLIENT_KEYS" with
  | some keysStr =>
      rw [Option.map_some, Option.getD_some, empty_mem_clientKeysOfEnv]
      simp
  | none =>
      rw [Option.map_none, Option.getD_none]
      cases hfile : file ((env "XIAOMI_PROXY_CONFIG").getD "config.toml") with
      | none =>
          -- without a file there are no configured client keys
          rw [hfile] at hread
          obtain rfl : Config.withoutFile = read := Except.ok.inj hread
          simp [Config.withoutFile]
      | some parsed =>
          rw [hfile, Option.getD_some] at hread
          simp [hread]

/-- A start that succeeds, and did not find the empty key in the table, keeps it out of
memory exactly if it does not load it. -/
theorem empty_notMem_of_new_iff {d : Deployment} {boot : Boot} {env : Config.Env}
    {file : String → Option (Except String Config)} {config : Config} {state : AppState}
    (hload : Config.load env file = .ok config)
    (hnew : AppState.new boot config d.db = .ok state)
    (htable : "" ∉ d.db.clientKeys.keys) :
    "" ∉ state.clientKeys ↔ d.LoadsNoEmpty (.start boot env file) := by
  by_cases hrows : d.db.clientKeys.rows = []
  · rw [loadsNoEmpty_iff hload hrows, (AppState.new_seeded hnew hrows "").2]
  · rw [LoadsNoEmpty, if_neg hrows, (AppState.new_loaded hnew hrows).2, List.mem_map]
    constructor
    · intro hnot k hk hread
      exact absurd ⟨k, hk, hread⟩ hnot
    · rintro hnone ⟨k, hk, hread⟩
      exact htable (hnone k hk hread ▸ hk)

/-! ## One step -/

/-- The empty key is neither in the table nor in memory. -/
structure NoEmptyKey (d : Deployment) : Prop where
  table : "" ∉ d.db.clientKeys.keys
  cache : "" ∉ d.clientKeys

theorem NoEmptyKey.refusesEmpty {d : Deployment} (h : d.NoEmptyKey) : d.RefusesEmpty := by
  refine ⟨h.cache, fun headers hkey => ?_⟩
  rw [Auth.auth, hkey, Auth.authorize, if_neg h.cache]

/-- A start that does not load the empty key. -/
theorem NoEmptyKey.start {d : Deployment} (h : d.NoEmptyKey) {boot : Boot}
    {env : Config.Env} {file : String → Option (Except String Config)}
    (hnone : d.LoadsNoEmpty (.start boot env file)) :
    (start boot env file d.db).NoEmptyKey := by
  unfold Deployment.start
  cases hload : Config.load env file with
  | error e => exact ⟨h.table, Finset.notMem_empty _⟩
  | ok config =>
      -- whatever the start leaves in the table was there, or was seeded
      have htable : "" ∉ (AppState.leftDb AppState.db
          (AppState.new boot config d.db)).clientKeys.keys := by
        intro hmem
        rcases AppState.new_from boot config d.db "" hmem with hold | ⟨hrows, hconfig⟩
        · exact h.table hold
        · exact (loadsNoEmpty_iff hload hrows).mp hnone hconfig
      rcases hnew : AppState.new boot config d.db with ⟨left, e⟩ | state
      · rw [hnew] at htable
        simpa only [hnew] using ⟨htable, Finset.notMem_empty _⟩
      · rw [hnew] at htable
        have hcache := (empty_notMem_of_new_iff hload hnew h.table).mpr hnone
        simpa only [hnew] using ⟨htable, hcache⟩

/-- The key the admin handler adds is not empty. -/
theorem NoEmptyKey.addClientKey {state : AppState} (h : (running state).NoEmptyKey)
    (reply : Db.Reply) (randStr : String) (payload : AddClientKeyPayload) :
    (running (Admin.addClientKey reply randStr payload state).1).NoEmptyKey := by
  have hkey := (Admin.newClientKey_ne_empty randStr payload).symm
  rcases reply with e | now
  · exact h
  · constructor
    · show "" ∉ (state.db.clientKeys.insertOrReplace _).keys
      intro hmem
      rcases KeyedTable.mem_keys_insertOrReplace.mp hmem with heq | hold
      · exact hkey heq
      · exact h.table hold
    · show "" ∉ insert (Admin.newClientKey randStr payload) state.clientKeys
      intro hmem
      rcases Finset.mem_insert.mp hmem with heq | hold
      · exact hkey heq
      · exact h.cache hold

theorem NoEmptyKey.deleteClientKey {state : AppState} (h : (running state).NoEmptyKey)
    (reply : Db.Reply) (key : String) :
    (running (Admin.deleteClientKey reply key state).1).NoEmptyKey := by
  rcases reply with e | now
  · exact h
  · exact ⟨fun hmem => h.table (KeyedTable.mem_keys_delete.mp hmem).2,
      fun hmem => h.cache (Finset.mem_of_mem_erase hmem)⟩

/-- **A step that does not load the empty key keeps it out.** -/
theorem NoEmptyKey.step {d d' : Deployment} {op : DeploymentOp} (h : d.NoEmptyKey)
    (hnone : d.LoadsNoEmpty op) (hstep : d.step op = some d') : d'.NoEmptyKey := by
  cases op with
  | start boot env file =>
      cases hstep
      exact h.start hnone
  | addClientKey reply randStr payload =>
      cases d with
      | stopped db => cases hstep
      | running state =>
          cases hstep
          exact h.addClientKey reply randStr payload
  | deleteClientKey reply key =>
      cases d with
      | stopped db => cases hstep
      | running state =>
          cases hstep
          exact h.deleteClientKey reply key

/-- The condition is exact: a start that succeeds, and does not find the empty key in the
table, refuses the empty credential only if it meets it. -/
theorem refusesEmpty_start_iff {d : Deployment} {boot : Boot} {env : Config.Env}
    {file : String → Option (Except String Config)} {state : AppState}
    (htable : "" ∉ d.db.clientKeys.keys) (hstart : start boot env file d.db = running state) :
    (running state).RefusesEmpty ↔ d.LoadsNoEmpty (.start boot env file) := by
  have hrefuses : (running state).RefusesEmpty ↔ "" ∉ state.clientKeys := by
    refine ⟨fun h => h.1, fun hnot => ⟨hnot, fun headers hkey => ?_⟩⟩
    rw [Auth.auth, hkey]
    exact if_neg hnot
  rw [hrefuses]
  unfold Deployment.start at hstart
  cases hload : Config.load env file with
  | error e => simp [hload] at hstart
  | ok config =>
      simp only [hload] at hstart
      cases hnew : AppState.new boot config d.db with
      | error left => simp [hnew] at hstart
      | ok state' =>
          rw [hnew] at hstart
          obtain rfl : state' = state := Deployment.running.inj hstart
          exact empty_notMem_of_new_iff hload hnew htable

/-! ## A whole life -/

/-- **The empty credential is refused** in every state of a deployment none of whose
starts loads the empty key. -/
theorem refusesEmpty_of_run (ops : List DeploymentOp) {d : Deployment}
    (hrun : Runs.run step (stopped .empty) ops = some d)
    (hnone : Runs.Along step LoadsNoEmpty (stopped .empty) ops) : d.RefusesEmpty := by
  have hempty : (stopped .empty).NoEmptyKey := ⟨List.not_mem_nil, Finset.notMem_empty _⟩
  exact (Runs.run_invariant_of_along (I := NoEmptyKey)
    (fun _ _ _ h hC hstep => h.step hC hstep) hempty hnone hrun).refusesEmpty

/-- A start without a configuration file, with this value of
`XIAOMI_PROXY_CLIENT_KEYS`. -/
def startWithKeys (keysStr : String) : DeploymentOp :=
  .start (.succeeding "now")
    (fun var => if var = "XIAOMI_PROXY_CLIENT_KEYS" then some keysStr else none)
    fun _ => none

/-- Two keys are seeded, and a third one is added under a blank name. -/
def threeKeys : List DeploymentOp :=
  [startWithKeys "sk-1, sk-2",
    .addClientKey (.ok "now") "3" { key := some " ", description := none, rateLimit := none }]

theorem refusesEmpty_threeKeys :
    ∃ d, Runs.run step (stopped .empty) threeKeys = some d ∧ d.RefusesEmpty := by
  have hnone : Runs.Along step LoadsNoEmpty (stopped .empty) threeKeys := by
    refine ⟨?_, fun _ _ => ⟨trivial, fun _ _ => trivial⟩⟩
    change ∀ piece ∈ Str.split ',' "sk-1, sk-2", ¬ Str.Blank piece
    simp only [← Str.trim_eq_empty]
    decide
  exact ⟨_, rfl, refusesEmpty_of_run threeKeys rfl hnone⟩

/-- A key that begins with a NUL passes the filter of the admin handler, and is the empty
key after the next start. -/
example : (Runs.run step (stopped .empty) [startWithKeys "sk-1",
    .addClientKey (.ok "now") "" { key := some "\x00x", description := none, rateLimit := none },
    startWithKeys "sk-1"]).map clientKeys = some {"sk-1", ""} := by decide

/-- An empty `XIAOMI_PROXY_CLIENT_KEYS` lets an empty `x-api-key` header in. -/
theorem empty_credential_accepted :
    ∃ d, Runs.run step (stopped .empty) [startWithKeys ""] = some d ∧
      Auth.auth d.clientKeys [("x-api-key", [])] = .ok { key := "" } ∧ ¬ d.RefusesEmpty := by
  have hin : ∀ d : Deployment, "" ∈ d.clientKeys → ¬ d.RefusesEmpty := fun d hmem h =>
    h.1 hmem
  exact ⟨_, rfl, by decide, hin _ (by decide)⟩

end Deployment

end XiaomiProxy
