import XiaomiProxy.Storage.RequestLogs

/-!
# Reading the request log

`RequestLog` of `storage/models.rs` and `Db::query_logs`, which reads single rows.

A row comes out of the database as texts and integers, and is cast back to the types it
was recorded from (`RequestLogRow.read`).  What was recorded is read back as it was
(`RecordRequest.read_row`); the texts are taken to be, unlike those of the key tables and of
the usage summary, of which a `TextReading` says what becomes of a NUL.

The days of a query, `from` and `to`, are compared with `date(timestamp)`, a function of
the database, which is a parameter here.  The rows come newest first; in which order those
of one second come is up to the reply, and so to each query anew.
-/

namespace XiaomiProxy

structure RequestLog where
  id : String
  timestamp : String
  clientKey : String
  protocol : String
  path : String
  model : Option String
  statusCode : UInt16
  latencyMs : UInt64
  promptTokens : Option UInt32
  completionTokens : Option UInt32
  totalTokens : Option UInt32
  isStream : Bool
  errorMessage : Option String
  deriving DecidableEq, Repr

/-- A flag as the database stores it. -/
def storedFlag (b : Bool) : Int64 := if b then 1 else 0

/-- What `Db::query_logs` makes of a row. -/
def RequestLogRow.read (row : RequestLogRow) : RequestLog where
  id := row.id
  timestamp := row.timestamp
  clientKey := row.clientKey
  protocol := row.protocol
  path := row.path
  model := row.model
  statusCode := asU16 row.statusCode
  latencyMs := row.latencyMs.toUInt64
  promptTokens := row.promptTokens.map asU32
  completionTokens := row.completionTokens.map asU32
  totalTokens := row.totalTokens.map asU32
  isStream := storedFlag row.isStream != 0
  errorMessage := row.errorMessage

/-- The log that is to be read of a request. -/
def RecordRequest.log (id now : String) (r : RecordRequest) : RequestLog where
  id
  timestamp := now
  clientKey := r.clientKey
  protocol := r.protocol
  path := r.path
  model := r.model
  statusCode := r.statusCode
  latencyMs := r.latencyMs
  promptTokens := r.promptTokens
  completionTokens := r.completionTokens
  totalTokens := r.totalTokens
  isStream := r.isStream
  errorMessage := none

/-- **What is recorded is read back**, whatever the numbers are. -/
theorem RecordRequest.read_row (id now : String) (r : RecordRequest) :
    (r.row id now).read = r.log id now := by
  have hcount : ∀ count : Option UInt32, (count.map asI64).map asU32 = count := by
    intro count
    rw [Option.map_map]
    refine (Option.map_congr fun w _ => ?_).trans Option.map_id'
    exact asU32_asI64 w
  have hflag : (storedFlag r.isStream != 0) = r.isStream := by
    cases r.isStream <;> rfl
  simp only [RequestLogRow.read, RecordRequest.row, RecordRequest.log, asU16_asI64,
    UInt64.toUInt64_toInt64, hcount, hflag]

namespace Db

/-- The order of a query with `ORDER BY timestamp DESC`. -/
abbrev LogOrder := NewestFirst fun row : RequestLogRow => some row.timestamp

/-- `date` of a timestamp the schema fills in. -/
def datePart (timestamp : String) : Option String :=
  some (String.ofList (timestamp.toList.take 10))

/-- The `WHERE` of `Db::query_logs`.  A row without a date is selected by no query, and one
without a model by no query for a model. -/
def selects (date : String → Option String) (fromDay toDay : String) (key model : Option String)
    (row : RequestLogRow) : Bool :=
  (match date row.timestamp with
    | some day => decide (fromDay ≤ day) && decide (day ≤ toDay)
    | none => false) &&
  (match key with
    | some k => decide (row.clientKey = k)
    | none => true) &&
  (match model with
    | some m => decide (row.model = some m)
    | none => true)

/-- `LIMIT`, which a negative number lifts. -/
def limited {α : Type} (limit : ℤ) (rows : List α) : List α :=
  if limit < 0 then rows else rows.take limit.toNat

/-- `Db::query_logs`.  An `OFFSET` below zero is none. -/
def queryLogs (reply : Except String LogOrder) (date : String → Option String)
    (logs : RequestLogs) (fromDay toDay : String) (limit offset : ℤ)
    (key model : Option String) : Except String (List RequestLog) :=
  reply.map fun order =>
    (limited limit ((order.arrange (logs.rows.filter (selects date fromDay toDay key model))).drop
      offset.toNat)).map RequestLogRow.read

/-- What is read is in the table. -/
theorem mem_queryLogs {reply : Except String LogOrder} {date : String → Option String}
    {logs : RequestLogs} {fromDay toDay : String} {limit offset : ℤ} {key model : Option String}
    {read : List RequestLog} {log : RequestLog}
    (h : queryLogs reply date logs fromDay toDay limit offset key model = .ok read)
    (hlog : log ∈ read) : ∃ row ∈ logs.rows, row.read = log := by
  cases reply with
  | error e => cases h
  | ok order =>
      cases h
      obtain ⟨row, hrow, rfl⟩ := List.mem_map.mp hlog
      refine ⟨row, ?_, rfl⟩
      have hdropped : row ∈ (order.arrange (logs.rows.filter
          (selects date fromDay toDay key model))).drop offset.toNat := by
        unfold limited at hrow
        split at hrow
        · exact hrow
        · exact List.mem_of_mem_take hrow
      exact List.mem_of_mem_filter ((order.perm _).mem_iff.mp (List.mem_of_mem_drop hdropped))

end Db

end XiaomiProxy
