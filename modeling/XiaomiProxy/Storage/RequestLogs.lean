import XiaomiProxy.RustStd
import XiaomiProxy.Storage.Db

/-!
# The request log

The `request_logs` table of `storage/schema.rs` and `Db::record_request`, the one
statement that writes it.

A row is read by what it says of a request, its `LogEntry`: who sent it, where it was
forwarded, which model it asked for, and how it was answered.
-/

namespace XiaomiProxy

/-- A row of `request_logs`. -/
structure RequestLogRow where
  id : String
  timestamp : String
  clientKey : String
  protocol : String
  path : String
  model : Option String
  statusCode : Int64
  latencyMs : Int64
  promptTokens : Option Int64
  completionTokens : Option Int64
  totalTokens : Option Int64
  isStream : Bool
  errorMessage : Option String
  deriving DecidableEq, Repr

abbrev RequestLogs := KeyedTable RequestLogRow.id

/-- The arguments of `Db::record_request`. -/
structure RecordRequest where
  clientKey : String
  protocol : String
  path : String
  model : Option String
  statusCode : UInt16
  latencyMs : UInt64
  promptTokens : Option UInt32
  completionTokens : Option UInt32
  totalTokens : Option UInt32
  isStream : Bool
  deriving DecidableEq, Repr

/-- The row `Db::record_request` inserts.  Its timestamp is the default of the schema. -/
def RecordRequest.row (id now : String) (r : RecordRequest) : RequestLogRow where
  id
  timestamp := now
  clientKey := r.clientKey
  protocol := r.protocol
  path := r.path
  model := r.model
  statusCode := asI64 r.statusCode.toUInt32
  latencyMs := r.latencyMs.toInt64
  promptTokens := r.promptTokens.map asI64
  completionTokens := r.completionTokens.map asI64
  totalTokens := r.totalTokens.map asI64
  isStream := r.isStream
  errorMessage := none

/-- `Db::record_request`, with the id it draws. -/
def Db.recordRequest (reply : Reply) (id : String) (logs : RequestLogs) (r : RecordRequest) :
    RequestLogs × Except String Unit :=
  match reply with
  | .error e => (logs, .error e)
  | .ok now =>
      match logs.insert (r.row id now) with
      | none => (logs, .error "UNIQUE constraint failed: request_logs.id")
      | some logs => (logs, .ok ())

/-- What a row says of a request and its response. -/
structure LogEntry where
  clientKey : String
  protocol : String
  path : String
  model : Option String
  status : ℤ
  isStream : Bool
  deriving DecidableEq, Repr

def RequestLogRow.entry (row : RequestLogRow) : LogEntry where
  clientKey := row.clientKey
  protocol := row.protocol
  path := row.path
  model := row.model
  status := row.statusCode.toInt
  isStream := row.isStream

def RecordRequest.entry (r : RecordRequest) : LogEntry where
  clientKey := r.clientKey
  protocol := r.protocol
  path := r.path
  model := r.model
  status := r.statusCode.toNat
  isStream := r.isStream

/-- A row says what it was asked to record. -/
theorem RecordRequest.entry_row (id now : String) (r : RecordRequest) :
    (r.row id now).entry = r.entry := by
  simp only [RequestLogRow.entry, RecordRequest.row, RecordRequest.entry, asI64_toInt,
    UInt16.toNat_toUInt32]

/-- A record that succeeds adds one row at the end. -/
theorem Db.rows_of_recordRequest {reply : Reply} {id : String} {logs logs' : RequestLogs}
    {r : RecordRequest} (h : Db.recordRequest reply id logs r = (logs', .ok ())) :
    ∃ now, logs'.rows = logs.rows ++ [r.row id now] := by
  cases reply with
  | error e => cases h
  | ok now =>
      rw [recordRequest] at h
      split at h
      · cases h
      · rename_i logs'' hinsert
        cases h
        exact ⟨now, KeyedTable.rows_of_insert hinsert⟩

/-- The row says what was asked. -/
theorem Db.recordRequest_ok {reply : Reply} {id : String} {logs logs' : RequestLogs}
    {r : RecordRequest} (h : Db.recordRequest reply id logs r = (logs', .ok ())) :
    ∃ row, logs'.rows = logs.rows ++ [row] ∧ row.entry = r.entry := by
  obtain ⟨now, hrows⟩ := Db.rows_of_recordRequest h
  exact ⟨r.row id now, hrows, r.entry_row id now⟩

/-- A record that fails leaves the log as it is. -/
theorem Db.logs_of_recordRequest_error {reply : Reply} {id : String}
    {logs logs' : RequestLogs} {r : RecordRequest} {e : String}
    (h : Db.recordRequest reply id logs r = (logs', .error e)) : logs' = logs := by
  unfold recordRequest at h
  split at h
  · cases h
    rfl
  · split at h
    · cases h
      rfl
    · cases h

/-- A record, with the reply to its statement and the id it draws. -/
structure RecordCall where
  reply : Db.Reply
  id : String
  record : RecordRequest

/-- The log after some records. -/
def Db.recordAll (logs : RequestLogs) (calls : List RecordCall) : RequestLogs :=
  calls.foldl (fun logs call => (Db.recordRequest call.reply call.id logs call.record).1) logs

/-- A record takes no row away. -/
theorem Db.rows_prefix_recordRequest (reply : Reply) (id : String) (logs : RequestLogs)
    (r : RecordRequest) : logs.rows <+: (Db.recordRequest reply id logs r).1.rows := by
  rcases hrecord : Db.recordRequest reply id logs r with ⟨logs', e | u⟩
  · -- a record that fails leaves the log as it is
    unfold recordRequest at hrecord
    split at hrecord
    · cases hrecord
      exact List.prefix_rfl
    · split at hrecord
      · cases hrecord
        exact List.prefix_rfl
      · cases hrecord
  · obtain ⟨now, hrows⟩ := Db.rows_of_recordRequest hrecord
    rw [hrows]
    exact List.prefix_append _ _

theorem Db.rows_prefix_recordAll (logs : RequestLogs) (calls : List RecordCall) :
    logs.rows <+: (Db.recordAll logs calls).rows := by
  induction calls generalizing logs with
  | nil => exact List.prefix_rfl
  | cons call calls ih =>
      exact (Db.rows_prefix_recordRequest call.reply call.id logs call.record).trans (ih _)

end XiaomiProxy
