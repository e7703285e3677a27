import XiaomiProxy.Handlers.Masking
import XiaomiProxy.Handlers.ProxyRoutes
import XiaomiProxy.Handlers.Revocation
import XiaomiProxy.Handlers.UsageReport
import XiaomiProxy.Middleware.BasicAuth
import XiaomiProxy.Middleware.RateLimit

/-!
# Requests and responses

What `router.rs` routes, and what comes back.

* `AdminChange` — the requests of the admin that change keys.  A handler is its statement,
  and after it succeeded its update (`AdminChange.handle_eq`).
* `AdminQuery` — the requests that only read.
* `Request` and `ServerResponse` — all of them, and all that is answered.
-/

namespace XiaomiProxy

/-- `into_response` of an error. -/
def AppError.intoResponse (e : AppError) : JsonResponse where
  status := e.status
  headers := []
  body := .error e.message e.errorType

/-- What an admin handler answers with. -/
inductive AdminReply where
  | success
  | added (key : String)
  | dashboard
  | usage (report : UsageReport)
  | logs (page : LogsPage)
  | keys (downstreamKeys : List KeyStats) (total healthy : ℕ)
  | clientKeys (keys : List ClientKeyModel)
  deriving DecidableEq

/-! ## Changes -/

/-- A request of the admin that changes keys. -/
inductive AdminChange where
  | clientKey (request : ClientKeyRequest)
  | addDownstreamKey (payload : AddDownstreamKeyPayload)
  | updateDownstreamKey (key : String) (weight : Int64)
  | deleteDownstreamKey (key : String)
  deriving DecidableEq

namespace AdminChange

/-- The statement of a change. -/
def statement (reply : Db.Reply) (db : Db) : AdminChange → Db × Except String Unit
  | .clientKey request => request.statement reply db
  | .addDownstreamKey payload =>
      db.addDownstreamKey reply (Str.trim payload.key) payload.weight
  | .updateDownstreamKey key weight => db.updateDownstreamKeyWeight reply key (max weight 1)
  | .deleteDownstreamKey key => db.deleteDownstreamKey reply key

/-- What a change updates in memory. -/
def update (state : AppState) : AdminChange → AppState
  | .clientKey request => { state with clientKeys := request.updateCache state.clientKeys }
  | .addDownstreamKey payload =>
      { state with
        keyPool := state.keyPool.addKey (Str.trim payload.key) (asU32 payload.weight) }
  | .updateDownstreamKey key weight =>
      { state with keyPool := state.keyPool.addKey key (asU32 (max weight 1)) }
  | .deleteDownstreamKey key => { state with keyPool := state.keyPool.removeKey key }

/-- What a change is answered with once it is made. -/
def reply : AdminChange → AdminReply
  | .clientKey (.add randStr payload) => .added (Admin.newClientKey randStr payload)
  | .clientKey (.delete _) | .addDownstreamKey _ | .updateDownstreamKey _ _
  | .deleteDownstreamKey _ => .success

/-- The handler of a change. -/
def handle (reply : Db.Reply) (state : AppState) :
    AdminChange → AppState × Except AppError AdminReply
  | .clientKey (.add randStr payload) =>
      (Admin.addClientKey reply randStr payload state).map id (Except.map .added)
  | .clientKey (.delete key) =>
      (Admin.deleteClientKey reply key state).map id (Except.map fun _ => .success)
  | .addDownstreamKey payload =>
      (Admin.addDownstreamKey reply payload state).map id (Except.map fun _ => .success)
  | .updateDownstreamKey key weight =>
      (Admin.updateDownstreamKey reply key weight state).map id (Except.map fun _ => .success)
  | .deleteDownstreamKey key =>
      (Admin.deleteDownstreamKey reply key state).map id (Except.map fun _ => .success)

/-- A handler is its statement, and then its update. -/
theorem handle_eq (reply : Db.Reply) (state : AppState) (change : AdminChange) :
    change.handle reply state = Admin.afterStatement state (change.statement reply state.db)
      (fun state => change.update state) change.reply := by
  rcases change with (⟨randStr, payload⟩ | key) | payload | ⟨key, weight⟩ | key <;>
    rcases reply with e | now <;> rfl

end AdminChange

/-! ## Queries -/

/-- A request of the admin that reads. -/
inductive AdminQuery where
  | dashboard
  | usage (query : UsageQuery)
  | logs (query : LogsQuery)
  | keys
  | clientKeys
  deriving DecidableEq

namespace AdminQuery

/-- What the database makes of a query: in which order the rows come, or an error; and how
it gives texts back. -/
structure Replies where
  reading : TextReading
  usage : Except String Db.UsageOrder
  logs : Except String Db.LogOrder
  clientKeys : Except String (Db.NewestFirst ClientKeyModel.createdAt)

/-- The handlers of the queries; `none` when the listing of the pool panics. -/
def handle (replies : Replies) (date : String → Option String) (state : AppState)
    (logs : RequestLogs) : AdminQuery → Option (Except AppError AdminReply)
  | .dashboard => some (.ok .dashboard)
  | .usage query => some ((Admin.getUsage replies.reading replies.usage date logs
      query).map .usage)
  | .logs query => some ((Admin.getLogs replies.logs date logs query).map .logs)
  | .keys => state.keyPool.keyStats.map fun stats =>
      .ok (.keys stats state.keyPool.keyCount state.keyPool.healthyKeyCount)
  | .clientKeys => some (((state.db.getClientKeys replies.reading
      replies.clientKeys).mapError AppError.ofString).map .clientKeys)

end AdminQuery

/-! ## Requests and responses -/

/-- A request, by its route. -/
inductive Request where
  | proxy (route : ProxyRoute) (headers : HeaderMap) (body : Json)
  | change (headers : HeaderMap) (change : AdminChange)
  | query (headers : HeaderMap) (query : AdminQuery)
  | health
  deriving DecidableEq

/-- A response, by who made it. -/
inductive ServerResponse where
  | json (response : JsonResponse)
  | text (response : TextResponse)
  | proxied (reply : Reply)
  | admin (reply : AdminReply)
  | empty (status : StatusCode)

namespace ServerResponse

/-- The response to a handler's result. -/
def ofReply : Except AppError Reply → ServerResponse
  | .ok reply => .proxied reply
  | .error e => .json e.intoResponse

def ofAdminReply : Except AppError AdminReply → ServerResponse
  | .ok reply => .admin reply
  | .error e => .json e.intoResponse

/-- The header `rate_limit` adds to the response of a handler, whatever it is. -/
def withRemaining (remaining : UInt32) : ServerResponse → ServerResponse
  | .json response =>
      .json { response with headers := RateLimit.withRemaining remaining response.headers }
  | .proxied (.whole status headers body) =>
      .proxied (.whole status (RateLimit.withRemaining remaining headers) body)
  | .proxied (.streaming response) =>
      .proxied (.streaming
        { response with headers := RateLimit.withRemaining remaining response.headers })
  | response => response

end ServerResponse

end XiaomiProxy
