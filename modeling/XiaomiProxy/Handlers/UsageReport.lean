import XiaomiProxy.Handlers.LogPages
import XiaomiProxy.Storage.QueryUsage

/-!
# The usage report

`get_usage` of `handlers/admin.rs`, next to `get_logs`: the one returns summaries of what the
other returns page by page.

Whoever walks through the pages of the logs, when nothing is read twice or not at all, and
adds up what they say, gets the totals of the report (`UsageReport.sum_requestCount_eq`,
`UsageReport.sum_tokens_eq`).
-/

namespace XiaomiProxy

structure UsageQuery where
  key : Option String
  fromDay : Option String
  toDay : Option String
  model : Option String
  deriving DecidableEq, Repr

/-- The response of `get_usage`. -/
structure UsageReport where
  fromDay : String
  toDay : String
  records : List UsageSummary
  deriving DecidableEq, Repr

namespace Admin

/-- `get_usage`. -/
def getUsage (reading : TextReading) (reply : Except String Db.UsageOrder)
    (date : String → Option String) (table : RequestLogs) (query : UsageQuery) :
    Except AppError UsageReport :=
  let fromDay := query.fromDay.getD "1970-01-01"
  let toDay := query.toDay.getD "9999-12-31"
  match Db.queryUsage reading reply date table fromDay toDay query.key query.model with
  | .error e => .error (AppError.ofString e)
  | .ok usage => .ok { fromDay, toDay, records := usage }

end Admin

/-- The query of the logs with the same filters. -/
def UsageQuery.logs (query : UsageQuery) : LogsQuery where
  fromDay := query.fromDay
  toDay := query.toDay
  key := query.key
  model := query.model
  limit := none
  offset := none

namespace UsageReport

section Report

variable {reading : TextReading} {order : Db.UsageOrder} {date : String → Option String}
  {table : RequestLogs} {query : UsageQuery} {report : UsageReport} {logs : List RequestLog}

/-- The records of a report come from the rows that match. -/
theorem summarize_eq_records
    (h : Admin.getUsage reading (.ok order) date table query = .ok report) :
    Db.summarize reading order date (order.visit (query.logs.matching date table))
      = .ok report.records := by
  unfold Admin.getUsage at h
  simp only at h
  split at h
  · cases h
  · rename_i usage husage
    cases h
    rw [Db.queryUsage_eq] at husage
    exact husage

/-- **A report counts the logs.** -/
theorem sum_requestCount_eq
    (h : Admin.getUsage reading (.ok order) date table query = .ok report)
    (hreads : query.logs.ReadsAll date table logs) :
    (report.records.map UsageSummary.requestCount).sum = logs.length := by
  rw [Db.sum_requestCount_of_summarize (summarize_eq_records h),
    (order.visit_perm _).length_eq, hreads.once.length_eq, List.length_map]

/-- A query without filters. -/
def unfiltered : UsageQuery where
  key := none
  fromDay := none
  toDay := none
  model := none

/-- A chat completion with its prompt. -/
def promptRow (id timestamp : String) (promptTokens : UInt32) : RequestLogRow :=
  RecordRequest.row id timestamp {
    clientKey := "sk-1"
    protocol := "openai"
    path := "/chat/completions"
    model := some "mimo"
    statusCode := 200
    latencyMs := 5
    promptTokens := some promptTokens
    completionTokens := none
    totalTokens := none
    isStream := false }

/-- Two chat completions of one day, and their prompts. -/
def twoPrompts (first second : UInt32) : RequestLogs where
  rows := [promptRow "id-1" "2025-06-01 12:00:00" first,
    promptRow "id-2" "2025-06-01 12:00:01" second]
  nodup := by simp [promptRow, RecordRequest.row]

theorem readsAll_twoPrompts : unfiltered.logs.ReadsAll Db.datePart (twoPrompts 7 5)
    [(promptRow "id-2" "2025-06-01 12:00:01" 5).read,
      (promptRow "id-1" "2025-06-01 12:00:00" 7).read] where
  once := by decide +kernel
  newestFirst := by decide +kernel

theorem exists_report_twoPrompts : ∃ report,
    Admin.getUsage .toFirstNul (.ok Db.tableOrder) Db.datePart (twoPrompts 7 5) unfiltered
      = .ok report :=
  Fallible.isOk_iff.mp (by decide +kernel)

theorem sum_requestCount_eq_two : ∃ report,
    Admin.getUsage .toFirstNul (.ok Db.tableOrder) Db.datePart (twoPrompts 7 5) unfiltered
        = .ok report ∧
      (report.records.map UsageSummary.requestCount).sum = 2 := by
  obtain ⟨report, hreport⟩ := exists_report_twoPrompts
  exact ⟨report, hreport, sum_requestCount_eq hreport readsAll_twoPrompts⟩

/-- **A report adds up the tokens of the logs**, if they were recorded. -/
theorem sum_tokens_eq
    (h : Admin.getUsage reading (.ok order) date table query = .ok report)
    (hreads : query.logs.ReadsAll date table logs)
    (hrecorded : ∀ row ∈ table.rows, ∃ (id now : String) (r : RecordRequest),
      row = r.row id now) (column : TokenColumn) :
    (report.records.map fun s => (s.total column).toInt).sum
      = ((logs.map fun log => ((log.tokens column).map UInt32.toNat).getD 0).sum : ℕ) := by
  have hrows : ∀ row ∈ query.logs.matching date table, Sql.amount (row.tokens column)
      = ((((row.read.tokens column).map UInt32.toNat).getD 0 : ℕ) : ℤ) := by
    intro row hrow
    obtain ⟨id, now, r, rfl⟩ := hrecorded row (List.mem_of_mem_filter hrow)
    -- a row that was recorded is read with the number that is summed up
    rw [RecordRequest.read_row, Db.tokens_row, Db.amount_asI64]
  have hlogs := hreads.once.map fun log : RequestLog =>
    ((log.tokens column).map UInt32.toNat).getD 0
  rw [Db.sum_tokens_of_summarize (summarize_eq_records h),
    ((order.visit_perm _).map _).sum_eq, List.map_congr_left hrows, hlogs.sum_eq,
    List.map_map, Nat.cast_list_sum, List.map_map]
  rfl

theorem sum_tokens_eq_two : ∃ report,
    Admin.getUsage .toFirstNul (.ok Db.tableOrder) Db.datePart (twoPrompts 7 5) unfiltered
        = .ok report ∧
      (report.records.map fun s => (s.total .promptTokens).toInt).sum = 12 := by
  obtain ⟨report, hreport⟩ := exists_report_twoPrompts
  refine ⟨report, hreport, sum_tokens_eq hreport readsAll_twoPrompts ?_ .promptTokens⟩
  intro row hrow
  rcases List.mem_cons.mp hrow with rfl | hrow
  · exact ⟨_, _, _, rfl⟩
  · obtain rfl := List.mem_singleton.mp hrow
    exact ⟨_, _, _, rfl⟩

end Report

end UsageReport

end XiaomiProxy
