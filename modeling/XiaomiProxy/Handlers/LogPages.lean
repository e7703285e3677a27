import XiaomiProxy.Error
import XiaomiProxy.Lib.Paging
import XiaomiProxy.Storage.QueryLogs

/-!
# Paging through the logs

`get_logs` of `handlers/admin.rs`, and the walk over its pages: at offset zero, and on by
the size of a page while there is more, as the dashboard does.

Every page is a query of its own, and timestamps are seconds, so rows of one second come
in an order that may change from page to page.  A walk reads all rows that match, each
once, exactly if no second is split between pages (`readsAll_iff`).

Limits and offsets are `i64` in the source.  No table has so many rows that an offset
within it would not fit, so they are integers here.
-/

namespace XiaomiProxy

structure LogsQuery where
  fromDay : Option String
  toDay : Option String
  key : Option String
  model : Option String
  limit : Option ℤ
  offset : Option ℤ
  deriving DecidableEq, Repr

/-- The response of `get_logs`. -/
structure LogsPage where
  logs : List RequestLog
  limit : ℤ
  offset : ℤ
  hasMore : Bool
  deriving DecidableEq, Repr

namespace Admin

/-- `get_logs`. -/
def getLogs (reply : Except String Db.LogOrder) (date : String → Option String)
    (table : RequestLogs) (query : LogsQuery) : Except AppError LogsPage :=
  let fromDay := query.fromDay.getD "1970-01-01"
  let toDay := query.toDay.getD "9999-12-31"
  let limit := min (query.limit.getD 100) 500
  let offset := query.offset.getD 0
  match Db.queryLogs reply date table fromDay toDay limit offset query.key query.model with
  | .error e => .error (AppError.ofString e)
  | .ok logs => .ok { logs, limit, offset, hasMore := decide ((logs.length : ℤ) = limit) }

end Admin

namespace LogsQuery

/-- The rows a query is about. -/
def matching (date : String → Option String) (table : RequestLogs) (query : LogsQuery) :
    List RequestLogRow :=
  table.rows.filter (Db.selects date (query.fromDay.getD "1970-01-01")
    (query.toDay.getD "9999-12-31") query.key query.model)

/-- The `j`-th page of `L` logs, and whether there is more. -/
def page (date : String → Option String) (table : RequestLogs) (query : LogsQuery) (L : ℕ)
    (order : Db.LogOrder) (j : ℕ) : List RequestLog × Bool :=
  match Admin.getLogs (.ok order) date table
      { query with limit := some L, offset := some (j * L) } with
  | .ok page => (page.logs, page.hasMore)
  | .error _ => ([], false)

/-- The logs of all pages, each read in an order of its own, until there are no more:
`none` when that is not within `fuel` pages. -/
def walk (date : String → Option String) (table : RequestLogs) (query : LogsQuery) (L : ℕ)
    (orders : ℕ → Db.LogOrder) (fuel : ℕ) : Option (List RequestLog) :=
  Paging.walk (fun j => query.page date table L (orders j) j) fuel 0

/-- Some logs are all that match, each once, and the newest first. -/
structure ReadsAll (date : String → Option String) (table : RequestLogs) (query : LogsQuery)
    (logs : List RequestLog) : Prop where
  once : logs.Perm ((query.matching date table).map RequestLogRow.read)
  newestFirst : logs.Pairwise fun a b => b.timestamp ≤ a.timestamp

section Order

variable {rows l : List RequestLogRow}

/-- What a query returns is arranged by timestamp. -/
theorem arranges (order : Db.LogOrder) (rows : List RequestLogRow) :
    Paging.Arranges RequestLogRow.timestamp rows (order.arrange rows) :=
  ⟨order.perm rows, (order.sorted rows).imp of_decide_eq_true⟩

/-- An order that arranges some rows in one way, and others in some way. -/
def choosing (h : Paging.Arranges RequestLogRow.timestamp rows l) : Db.LogOrder where
  arrange rows' := if rows' = rows then l else (Db.newestFirst _).arrange rows'
  perm rows' := by
    split
    · rename_i heq
      rw [heq]
      exact h.perm
    · exact (Db.newestFirst _).perm rows'
  sorted rows' := by
    split
    · exact h.sorted.imp fun hle => decide_eq_true hle
    · exact (Db.newestFirst _).sorted rows'

theorem arrange_choosing (h : Paging.Arranges RequestLogRow.timestamp rows l) :
    (choosing h).arrange rows = l := if_pos rfl

end Order

section Walk

variable (date : String → Option String) (table : RequestLogs) (query : LogsQuery) {L : ℕ}

/-- A page is cut out of the matching rows. -/
theorem page_eq (hL : L ≤ 500) (orders : ℕ → Db.LogOrder) (j : ℕ) :
    query.page date table L (orders j) j
      = ((Paging.pages L (fun i => (orders i).arrange (query.matching date table)) j).1.map
          RequestLogRow.read,
        (Paging.pages L (fun i => (orders i).arrange (query.matching date table)) j).2) := by
  have hlimit : min (L : ℤ) 500 = L := min_eq_left (by omega)
  have hoffset : ((j : ℤ) * L).toNat = j * L := by
    rw [← Nat.cast_mul, Int.toNat_natCast]
  simp only [page, Admin.getLogs, Db.queryLogs, Except.map, Option.getD_some, hlimit,
    hoffset, Db.limited, Int.toNat_natCast, List.length_map, Nat.cast_inj, Paging.pages,
    Paging.page, matching]
  rw [if_neg (by omega)]
  rfl

/-- A walk reads the pages of the matching rows. -/
theorem walk_eq (hL : L ≤ 500) (orders : ℕ → Db.LogOrder) (fuel : ℕ) :
    query.walk date table L orders fuel
      = (Paging.walk (Paging.pages L fun i => (orders i).arrange (query.matching date table))
          fuel 0).map (List.map RequestLogRow.read) := by
  rw [← Paging.walk_map, walk]
  exact congrArg (Paging.walk · fuel 0) (funext (query.page_eq date table hL orders))

/-- The logs that match are distinct. -/
theorem nodup_matching : ((query.matching date table).map RequestLogRow.read).Nodup := by
  have hids : ((query.matching date table).map RequestLogRow.id).Nodup :=
    table.nodup.sublist (List.filter_sublist.map _)
  refine List.Nodup.of_map RequestLog.id ?_
  rwa [List.map_map]

/-- **A walk over pages of 1 to 500 logs ends with all that match, each once and the newest
first, in whatever order each query returns the rows of one second, exactly if no second
reaches over the end of a page.** -/
theorem readsAll_iff (hL : 1 ≤ L) (hL' : L ≤ 500) :
    (∀ orders : ℕ → Db.LogOrder, ∃ fuel logs,
        query.walk date table L orders fuel = some logs ∧ query.ReadsAll date table logs) ↔
      ∀ j, Paging.Clean RequestLogRow.timestamp (query.matching date table) (j * L) := by
  constructor
  · intro hall j
    by_contra hclean
    obtain ⟨ls, hls, read, hread, hdup⟩ := Paging.exists_not_nodup hL hclean
      (arranges (Db.newestFirst _) (query.matching date table))
    obtain ⟨fuel, logs, hwalk, hlogs⟩ := hall fun i => choosing (hls i)
    rw [walk_eq date table query hL'] at hwalk
    simp only [arrange_choosing] at hwalk
    obtain ⟨read', hread', rfl⟩ := Option.map_eq_some_iff.mp hwalk
    obtain rfl := Paging.walk_unique hread hread'
    -- the walk reads a log twice, and all logs that match are distinct
    exact hdup (List.Nodup.of_map _ (hlogs.once.nodup_iff.mpr (nodup_matching date table query)))
  · intro hclean orders
    obtain ⟨read, hread, harranges⟩ := Paging.perm_of_clean hL
      (fun j => arranges (orders j) (query.matching date table)) hclean
    refine ⟨(query.matching date table).length / L + 1, read.map RequestLogRow.read, ?_,
      harranges.perm.map _, List.pairwise_map.mpr harranges.sorted⟩
    rw [walk_eq date table query hL', hread]
    rfl

end Walk

/-! ## Single walks -/

/-- A request that was recorded at some time. -/
def rowAt (timestamp id : String) : RequestLogRow :=
  RecordRequest.row id timestamp {
    clientKey := "sk-1"
    protocol := "openai"
    path := "/chat/completions"
    model := some "mimo"
    statusCode := 200
    latencyMs := 5
    promptTokens := none
    completionTokens := none
    totalTokens := none
    isStream := false }

/-- Two requests in one second, and one in the second before. -/
def threeRows : RequestLogs where
  rows := [rowAt "2025-06-01 12:00:00" "id-1", rowAt "2025-06-01 12:00:01" "id-2",
    rowAt "2025-06-01 12:00:01" "id-3"]
  nodup := by decide

/-- A query without filters. -/
def unfiltered : LogsQuery where
  fromDay := none
  toDay := none
  key := none
  model := none
  limit := none
  offset := none

/-- In pages of two logs, the two requests of one second are on one page. -/
theorem readsAll_two_by_two :
    (unfiltered.matching Db.datePart threeRows).length = 3 ∧
      ∀ orders : ℕ → Db.LogOrder, ∃ fuel logs,
        unfiltered.walk Db.datePart threeRows 2 orders fuel = some logs ∧
          unfiltered.ReadsAll Db.datePart threeRows logs := by
  have hlength : (unfiltered.matching Db.datePart threeRows).length = 3 := by decide +kernel
  refine ⟨hlength, (readsAll_iff Db.datePart threeRows unfiltered (L := 2) (by decide)
    (by decide)).mpr fun j => ?_⟩
  rcases j with _ | _ | j
  · decide +kernel
  · decide +kernel
  · exact Paging.clean_of_length_le (by omega)

/-- Newest first, and rows of one second in the order of the table, or in the other. -/
def alternating (j : ℕ) : Db.LogOrder :=
  if j = 0 then Db.newestFirst _
  else
    { arrange := fun rows => (Db.newestFirst _).arrange rows.reverse
      perm := fun rows => ((Db.newestFirst _).perm rows.reverse).trans rows.reverse_perm
      sorted := fun rows => (Db.newestFirst _).sorted rows.reverse }

/-- In pages of one log, one of them may be read twice, and the other not at all. -/
theorem not_readsAll_one_by_one :
    (unfiltered.walk Db.datePart threeRows 1 alternating 4).map (List.map RequestLog.id)
        = some ["id-2", "id-2", "id-1"] ∧
      ¬ ∀ orders : ℕ → Db.LogOrder, ∃ fuel logs,
        unfiltered.walk Db.datePart threeRows 1 orders fuel = some logs ∧
          unfiltered.ReadsAll Db.datePart threeRows logs := by
  have hwalk : (unfiltered.walk Db.datePart threeRows 1 alternating 4).map
      (List.map RequestLog.id) = some ["id-2", "id-2", "id-1"] := by decide +kernel
  refine ⟨hwalk, fun hall => ?_⟩
  obtain ⟨fuel, logs, hlogs, hreads⟩ := hall alternating
  obtain ⟨logs', hlogs', hids⟩ := Option.map_eq_some_iff.mp hwalk
  obtain rfl := Paging.walk_unique hlogs hlogs'
  have hperm := hreads.once.map RequestLog.id
  rw [hids] at hperm
  revert hperm
  decide +kernel

end LogsQuery

end XiaomiProxy
