import XiaomiProxy.State

/-!
# The admin handlers

The handlers of `handlers/admin.rs` that change keys.  Each carries out one statement
on the database, and after it succeeded updates what is in memory: the cache of client
keys, or the pool of downstream keys.  A statement that fails ends the handler, and
nothing has changed.
-/

namespace XiaomiProxy

structure AddClientKeyPayload where
  key : Option String
  description : Option String
  rateLimit : Option Int64
  deriving DecidableEq, Repr

structure AddDownstreamKeyPayload where
  key : String
  weight : Int64
  deriving DecidableEq, Repr

namespace Admin

/-- End a handler with the error of its statement, or go on in memory and respond. -/
def afterStatement {α : Type} (state : AppState) (result : Db × Except String Unit)
    (update : AppState → AppState) (response : α) : AppState × Except AppError α :=
  match result with
  | (db, .error e) => ({ state with db }, .error (AppError.ofString e))
  | (db, .ok ()) => (update { state with db }, .ok response)

/-- The key `add_client_key` adds: the one in the payload, trimmed, or a generated one
from 32 random alphanumeric characters. -/
def newClientKey (randStr : String) (payload : AddClientKeyPayload) : String :=
  match payload.key with
  | some k => if Str.trim k ≠ "" then Str.trim k else "sk-" ++ randStr
  | none => "sk-" ++ randStr

/-- `add_client_key`, which responds with the key. -/
def addClientKey (reply : Db.Reply) (randStr : String) (payload : AddClientKeyPayload)
    (state : AppState) : AppState × Except AppError String :=
  let key := newClientKey randStr payload
  afterStatement state
    (state.db.addClientKey reply key payload.description payload.rateLimit)
    (fun state => { state with clientKeys := insert key state.clientKeys }) key

/-- `delete_client_key`. -/
def deleteClientKey (reply : Db.Reply) (key : String) (state : AppState) :
    AppState × Except AppError Unit :=
  afterStatement state (state.db.deleteClientKey reply key)
    (fun state => { state with clientKeys := state.clientKeys.erase key }) ()

/-- `add_downstream_key`. -/
def addDownstreamKey (reply : Db.Reply) (payload : AddDownstreamKeyPayload)
    (state : AppState) : AppState × Except AppError Unit :=
  let key := Str.trim payload.key
  let weight := payload.weight
  afterStatement state (state.db.addDownstreamKey reply key weight)
    (fun state => { state with keyPool := state.keyPool.addKey key (asU32 weight) }) ()

/-- `update_downstream_key`. -/
def updateDownstreamKey (reply : Db.Reply) (key : String) (weight : Int64)
    (state : AppState) : AppState × Except AppError Unit :=
  -- only the update raises the weight to one
  let weight := max weight 1
  afterStatement state (state.db.updateDownstreamKeyWeight reply key weight)
    (fun state => { state with keyPool := state.keyPool.addKey key (asU32 weight) }) ()

/-- `delete_downstream_key`. -/
def deleteDownstreamKey (reply : Db.Reply) (key : String) (state : AppState) :
    AppState × Except AppError Unit :=
  afterStatement state (state.db.deleteDownstreamKey reply key)
    (fun state => { state with keyPool := state.keyPool.removeKey key }) ()

section Statement

variable {α : Type} (state : AppState) (statement : String → Db)
  (update : AppState → AppState) (response : α)

/-- A handler whose statement succeeds does both its steps. -/
theorem afterStatement_ok (now : String) :
    afterStatement state (state.db.execute (.ok now) statement) update response
      = (update { state with db := statement now }, .ok response) := rfl

end Statement

/-- The key `add_client_key` adds is never empty. -/
theorem newClientKey_ne_empty (randStr : String) (payload : AddClientKeyPayload) :
    newClientKey randStr payload ≠ "" := by
  have hgenerated : "sk-" ++ randStr ≠ "" := by
    intro h
    simpa using congrArg String.length h
  unfold newClientKey
  split
  · split
    · assumption
    · exact hgenerated
  · exact hgenerated

end Admin

end XiaomiProxy
