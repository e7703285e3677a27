import XiaomiProxy.Lib.Sql
import XiaomiProxy.Storage.QueryLogs

/-!
# The statements that read the request log

`Db::query_logs` and `Db::query_usage` each put their SQL together from the filters they
are given: a condition for a filter that is there, with the next number for its parameter,
and in `Db::query_logs` two numbers more, for `LIMIT` and `OFFSET`.

Whichever filters there are, every number is bound to the value it is meant for, so both
keep the same rows (`selects_rows`), and `Db.queryLogs` is what the statement of
`Db::query_logs` returns (`LogsStatement.run_logsStatement`).
-/

namespace XiaomiProxy

namespace Db

section Where

variable (date : String → Option String) (fromDay toDay : String) (key model : Option String)

/-- `FROM request_logs WHERE ..`, as both queries build it. -/
def rowsStatement : Sql.Statement RequestLogRow :=
  let day := fun row : RequestLogRow => Sql.Value.ofText (date row.timestamp)
  let q : Sql.Statement RequestLogRow := {
    conditions := [
      { column := day, comparison := .ge, param := 1 },
      { column := day, comparison := .le, param := 2 }]
    params := [.text fromDay, .text toDay]
    numbered := by simp }
  (q.filterBy (fun row => .text row.clientKey) key).filterBy (fun row => .ofText row.model) model

/-- **The statements select what they are to select**, whichever filters there are. -/
theorem selects_rows (row : RequestLogRow) :
    (rowsStatement date fromDay toDay key model).selects row
      = selects date fromDay toDay key model row := by
  rw [rowsStatement, Sql.Statement.selects_filterBy, Sql.Statement.selects_filterBy,
    selects.eq_def]
  congr 1
  · congr 1
    · -- the two bounds of the day
      cases hday : date row.timestamp <;>
        simp [Sql.Statement.selects, Sql.Condition.holds, Sql.bound, hday]
    · cases key <;> simp
  · cases model with
    | none => rfl
    | some m => cases hmodel : row.model <;> simp [Sql.Value.ofText]

end Where

/-- The statement of `Db::query_logs`, with the numbers after `LIMIT` and `OFFSET`. -/
structure LogsStatement where
  statement : Sql.Statement RequestLogRow
  limit : ℕ
  offset : ℕ

/-- The statement `Db::query_logs` prepares. -/
def logsStatement (date : String → Option String) (fromDay toDay : String)
    (limit offset : Int64) (key model : Option String) : LogsStatement :=
  let q := rowsStatement date fromDay toDay key model
  { statement := (q.push (.integer limit)).push (.integer offset)
    limit := q.params.length + 1
    offset := q.params.length + 2 }

/-- The rows the statement returns.  A limit or an offset has to be an integer. -/
def LogsStatement.run (q : LogsStatement) (order : LogOrder) (logs : RequestLogs) :
    Except String (List RequestLogRow) :=
  match (Sql.bound q.statement.params q.limit).toInteger,
      (Sql.bound q.statement.params q.offset).toInteger with
  | some limit, some offset =>
      .ok (limited limit.toInt ((order.arrange (logs.rows.filter q.statement.selects)).drop
        offset.toInt.toNat))
  | _, _ => .error "datatype mismatch"

/-- **`Db::query_logs` reads what its statement returns.** -/
theorem LogsStatement.run_logsStatement (order : LogOrder) (date : String → Option String)
    (logs : RequestLogs) (fromDay toDay : String) (limit offset : Int64)
    (key model : Option String) :
    ((logsStatement date fromDay toDay limit offset key model).run order logs).map
        (List.map RequestLogRow.read)
      = queryLogs (.ok order) date logs fromDay toDay limit.toInt offset.toInt key model := by
  set q := rowsStatement date fromDay toDay key model with hq
  have hlimit : Sql.bound ((q.push (.integer limit)).push (.integer offset)).params
      (q.params.length + 1) = .integer limit := by
    show Sql.bound (q.params ++ [.integer limit] ++ [.integer offset]) _ = _
    rw [List.append_assoc, List.singleton_append, Sql.bound_length_succ]
  have hoffset : Sql.bound ((q.push (.integer limit)).push (.integer offset)).params
      (q.params.length + 2) = .integer offset := by
    have hlength : q.params.length + 2 = (q.params ++ [Sql.Value.integer limit]).length + 1 := by
      rw [List.length_append]
      rfl
    rw [hlength]
    exact Sql.bound_length_succ _ _ []
  have hselects : ((q.push (.integer limit)).push (.integer offset)).selects
      = selects date fromDay toDay key model := by
    funext row
    rw [Sql.Statement.selects_push, Sql.Statement.selects_push, hq, selects_rows]
  rw [run, logsStatement, ← hq]
  simp only [hlimit, hoffset, hselects, Sql.Value.toInteger]
  rfl

end Db

end XiaomiProxy
