import XiaomiProxy.Lib.Grouping
import XiaomiProxy.Storage.Statements

/-!
# The usage summary

`UsageSummary` of `storage/models.rs` and `Db::query_usage`, which counts and sums up the
request log by day, client key and model.

The rows that are summed up are those that `Db::query_logs` reads with the same filters and
without a limit.  The groups are a partition of them, so what the summaries say adds up to
what the rows say (`queryUsage_summarizes`).  The sums are `i64`, and `SUM` fails when one
overflows on the way; then the query fails.

The groups are made of whole texts, but what a summary says of its group is read back from
the result.  Two groups whose texts differ after a NUL may so get summaries that say the
same (`not_queryUsage_summarizes`).

In which order the rows of a group are visited, and the groups of one day returned, is up to
the reply.  A count is a natural number here, as no table has so many rows that it would not
fit.
-/

namespace XiaomiProxy

/-- The columns that are summed up. -/
inductive TokenColumn where
  | promptTokens
  | completionTokens
  | totalTokens
  deriving DecidableEq, Repr

/-- What a group has in common: `date(timestamp), client_key, model`. -/
structure UsageKey where
  date : Option String
  clientKey : String
  model : Option String
  deriving DecidableEq, Repr

/-- What is read of a group. -/
def UsageKey.readBack (reading : TextReading) (k : UsageKey) : UsageKey where
  date := k.date.map reading.read
  clientKey := reading.read k.clientKey
  model := k.model.map reading.read

/-- None of the texts of a group has a NUL in it. -/
structure UsageKey.NoNul (k : UsageKey) : Prop where
  date : ∀ date ∈ k.date, XiaomiProxy.NoNul date
  clientKey : XiaomiProxy.NoNul k.clientKey
  model : ∀ model ∈ k.model, XiaomiProxy.NoNul model

instance : DecidablePred UsageKey.NoNul := fun k =>
  decidable_of_iff ((∀ date ∈ k.date, XiaomiProxy.NoNul date) ∧
      XiaomiProxy.NoNul k.clientKey ∧ ∀ model ∈ k.model, XiaomiProxy.NoNul model)
    ⟨fun ⟨hdate, hkey, hmodel⟩ => ⟨hdate, hkey, hmodel⟩,
      fun ⟨hdate, hkey, hmodel⟩ => ⟨hdate, hkey, hmodel⟩⟩

theorem UsageKey.NoNul.readBack_eq {k : UsageKey} (h : k.NoNul) (reading : TextReading) :
    k.readBack reading = k := by
  have hoption {text : Option String} (htext : ∀ s ∈ text, XiaomiProxy.NoNul s) :
      text.map reading.read = text := by
    cases text with
    | none => rfl
    | some s => exact congrArg some (reading.read_of_noNul s (htext s rfl))
  rw [UsageKey.readBack, hoption h.date, hoption h.model,
    reading.read_of_noNul _ h.clientKey]

namespace RequestLogRow

def tokens (row : RequestLogRow) : TokenColumn → Option Int64
  | .promptTokens => row.promptTokens
  | .completionTokens => row.completionTokens
  | .totalTokens => row.totalTokens

/-- The group of a row. -/
def usageKey (date : String → Option String) (row : RequestLogRow) : UsageKey where
  date := date row.timestamp
  clientKey := row.clientKey
  model := row.model

end RequestLogRow

/-- What a log says in a column that is summed up. -/
def RequestLog.tokens (log : RequestLog) : TokenColumn → Option UInt32
  | .promptTokens => log.promptTokens
  | .completionTokens => log.completionTokens
  | .totalTokens => log.totalTokens

structure UsageSummary where
  date : String
  clientKey : String
  model : Option String
  requestCount : ℕ
  totalPromptTokens : Int64
  totalCompletionTokens : Int64
  totalTokens : Int64
  deriving DecidableEq, Repr

namespace UsageSummary

def key (s : UsageSummary) : UsageKey where
  date := some s.date
  clientKey := s.clientKey
  model := s.model

def total (s : UsageSummary) : TokenColumn → Int64
  | .promptTokens => s.totalPromptTokens
  | .completionTokens => s.totalCompletionTokens
  | .totalTokens => s.totalTokens

end UsageSummary

/-- A row of the result. -/
structure UsageRow where
  key : UsageKey
  requestCount : ℕ
  totalPromptTokens : Int64
  totalCompletionTokens : Int64
  totalTokens : Int64
  deriving DecidableEq, Repr

namespace UsageRow

def total (u : UsageRow) : TokenColumn → Int64
  | .promptTokens => u.totalPromptTokens
  | .completionTokens => u.totalCompletionTokens
  | .totalTokens => u.totalTokens

/-- What `Db::query_usage` makes of a row of the result, of which the date has to be there. -/
def read (reading : TextReading) (u : UsageRow) : Except String UsageSummary :=
  match u.key.date with
  | none => .error "Null value"
  | some date => .ok {
      date := reading.read date
      clientKey := reading.read u.key.clientKey
      model := u.key.model.map reading.read
      requestCount := u.requestCount
      totalPromptTokens := u.totalPromptTokens
      totalCompletionTokens := u.totalCompletionTokens
      totalTokens := u.totalTokens }

end UsageRow

namespace Db

/-- `COALESCE(SUM(column), 0)`. -/
def summed (rows : List RequestLogRow) (column : TokenColumn) : Except String Int64 :=
  (Sql.sum (rows.map fun row => row.tokens column)).map (Sql.coalesce · 0)

/-- The row of the result for a group. -/
def usageRow (key : UsageKey) (rows : List RequestLogRow) : Except String UsageRow := do
  let totalPromptTokens ← summed rows .promptTokens
  let totalCompletionTokens ← summed rows .completionTokens
  let totalTokens ← summed rows .totalTokens
  return {
    key
    requestCount := rows.length
    totalPromptTokens
    totalCompletionTokens
    totalTokens }

/-- The order in which the database visits the rows, and the one of the result, which is
`ORDER BY date(timestamp) DESC`. -/
structure UsageOrder where
  visit : List RequestLogRow → List RequestLogRow
  visit_perm : ∀ rows, (visit rows).Perm rows
  result : NewestFirst fun u : UsageRow => u.key.date

/-- The summaries of the rows that are selected. -/
def summarize (reading : TextReading) (order : UsageOrder) (date : String → Option String)
    (rows : List RequestLogRow) : Except String (List UsageSummary) := do
  let result ← (Grouping.keys (RequestLogRow.usageKey date) rows).mapM fun k =>
    usageRow k (Grouping.members (RequestLogRow.usageKey date) rows k)
  (order.result.arrange result).mapM (UsageRow.read reading)

/-- `Db::query_usage`. -/
def queryUsage (reading : TextReading) (reply : Except String UsageOrder)
    (date : String → Option String) (logs : RequestLogs) (fromDay toDay : String)
    (key model : Option String) : Except String (List UsageSummary) := do
  let order ← reply
  let q := rowsStatement date fromDay toDay key model
  summarize reading order date (order.visit (logs.rows.filter q.selects))

/-- Summaries of some rows: one for each date, client key and model among them, the newest
first, with the count and the sums over the rows of the group. -/
structure Summarizes (date : String → Option String) (rows : List RequestLogRow)
    (summaries : List UsageSummary) : Prop where
  once : (summaries.map UsageSummary.key).Nodup
  mem_iff : ∀ k, k ∈ summaries.map UsageSummary.key ↔ ∃ row ∈ rows, row.usageKey date = k
  newestFirst : summaries.Pairwise fun s s' => s'.date ≤ s.date
  requestCount : ∀ s ∈ summaries,
    s.requestCount = (Grouping.members (RequestLogRow.usageKey date) rows s.key).length
  tokens : ∀ s ∈ summaries, ∀ column, (s.total column).toInt
    = ((Grouping.members (RequestLogRow.usageKey date) rows s.key).map fun row =>
        Sql.amount (row.tokens column)).sum

/-! ## Groups -/

theorem summed_eq_ok_iff {rows : List RequestLogRow} {column : TokenColumn} {s : Int64} :
    summed rows column = .ok s ↔
      Sql.Fits (rows.map fun row => row.tokens column) ∧
        s.toInt = (rows.map fun row => Sql.amount (row.tokens column)).sum := by
  rw [summed, Sql.coalesce_sum_eq_ok_iff, List.map_map]
  exact Iff.rfl

/-- What the result says of a group. -/
theorem usageRow_eq_ok_iff {k : UsageKey} {rows : List RequestLogRow} {u : UsageRow} :
    usageRow k rows = .ok u ↔ u.key = k ∧ u.requestCount = rows.length ∧
      ∀ column, summed rows column = .ok (u.total column) := by
  obtain ⟨key, requestCount, prompt, completion, total⟩ := u
  simp only [usageRow, Fallible.bind_eq_ok_iff, pure, Except.pure, Except.ok.injEq,
    UsageRow.mk.injEq]
  constructor
  · rintro ⟨_, hprompt, _, hcompletion, _, htotal, rfl, rfl, rfl, rfl, rfl⟩
    refine ⟨rfl, rfl, fun column => ?_⟩
    cases column with
    | promptTokens => exact hprompt
    | completionTokens => exact hcompletion
    | totalTokens => exact htotal
  · rintro ⟨rfl, rfl, hcolumns⟩
    exact ⟨prompt, hcolumns .promptTokens, completion, hcolumns .completionTokens, total,
      hcolumns .totalTokens, rfl, rfl, rfl, rfl, rfl⟩

/-- A group has a row in the result if its sums do not overflow on the way. -/
theorem exists_usageRow_iff {k : UsageKey} {rows : List RequestLogRow} :
    (∃ u, usageRow k rows = .ok u) ↔
      ∀ column, Sql.Fits (rows.map fun row => row.tokens column) := by
  constructor
  · rintro ⟨u, hu⟩ column
    obtain ⟨-, -, hcolumns⟩ := usageRow_eq_ok_iff.mp hu
    exact (summed_eq_ok_iff.mp (hcolumns column)).1
  · intro hfits
    have hsums : ∀ column, ∃ s, summed rows column = .ok s := fun column =>
      (hfits column).exists_sum
    choose s hs using hsums
    refine ⟨⟨k, rows.length, s .promptTokens, s .completionTokens, s .totalTokens⟩,
      usageRow_eq_ok_iff.mpr ⟨rfl, rfl, fun column => ?_⟩⟩
    cases column <;> exact hs _

/-- A row of the result is read if it has a date. -/
theorem exists_read (reading : TextReading) {u : UsageRow} {day : String}
    (h : u.key.date = some day) : ∃ s, u.read reading = .ok s := by
  rw [UsageRow.read, h]
  exact ⟨_, rfl⟩

/-- The numbers of a row of the result are read as they are. -/
theorem read_eq_ok {reading : TextReading} {u : UsageRow} {s : UsageSummary}
    (h : u.read reading = .ok s) :
    s.key = u.key.readBack reading ∧ s.requestCount = u.requestCount ∧
      ∀ column, s.total column = u.total column := by
  obtain ⟨⟨date, clientKey, model⟩, requestCount, prompt, completion, total⟩ := u
  cases date with
  | none => cases h
  | some date =>
      cases h
      exact ⟨rfl, rfl, fun column => by cases column <;> rfl⟩

/-! ## Summaries -/

section Summaries

variable {reading : TextReading} {order : UsageOrder} {date : String → Option String}
  {rows rows' : List RequestLogRow} {result : List UsageRow} {summaries : List UsageSummary}

theorem summarize_eq_ok_iff : summarize reading order date rows = .ok summaries ↔
    ∃ result, (Grouping.keys (RequestLogRow.usageKey date) rows).mapM (fun k =>
        usageRow k (Grouping.members (RequestLogRow.usageKey date) rows k)) = .ok result ∧
      (order.result.arrange result).mapM (UsageRow.read reading) = .ok summaries :=
  Fallible.bind_eq_ok_iff

/-- Rows with dates are summarized exactly if no sum of a group overflows on the way. -/
theorem exists_summarize_iff (hdates : ∀ row ∈ rows, (date row.timestamp).isSome) :
    (∃ summaries, summarize reading order date rows = .ok summaries) ↔
      ∀ k column, Sql.Fits ((Grouping.members (RequestLogRow.usageKey date) rows k).map
        fun row => row.tokens column) := by
  constructor
  · rintro ⟨summaries, hsummaries⟩ k
    obtain ⟨result, hresult, -⟩ := summarize_eq_ok_iff.mp hsummaries
    by_cases hk : k ∈ Grouping.keys (RequestLogRow.usageKey date) rows
    · exact exists_usageRow_iff.mp (Fallible.exists_mapM_iff.mp ⟨result, hresult⟩ k hk)
    · -- a key that does not occur has no rows to sum up
      have hempty : Grouping.members (RequestLogRow.usageKey date) rows k = [] := by
        refine List.eq_nil_iff_forall_not_mem.mpr fun row hrow => hk ?_
        exact Grouping.mem_keys.mpr ⟨row, Grouping.mem_members.mp hrow⟩
      intro column
      rw [hempty]
      exact Sql.fits_nil
  · intro hfits
    obtain ⟨result, hresult⟩ := Fallible.exists_mapM_iff.mpr fun k
        (_ : k ∈ Grouping.keys (RequestLogRow.usageKey date) rows) =>
      exists_usageRow_iff.mpr (hfits k)
    have hread : ∀ u ∈ order.result.arrange result, ∃ s, u.read reading = .ok s := by
      intro u hu
      obtain ⟨k, hk, hku⟩ := Fallible.exists_of_mem_mapM hresult
        ((order.result.perm result).mem_iff.mp hu)
      obtain ⟨row, hrow, hrowk⟩ := Grouping.mem_keys.mp hk
      obtain ⟨day, hday⟩ := Option.isSome_iff_exists.mp (hdates row hrow)
      have hkey := (usageRow_eq_ok_iff.mp hku).1.trans hrowk.symm
      exact exists_read reading ((congrArg UsageKey.date hkey).trans hday)
    obtain ⟨summaries, hsummaries⟩ := Fallible.exists_mapM_iff.mpr hread
    exact ⟨summaries, summarize_eq_ok_iff.mpr ⟨result, hresult, hsummaries⟩⟩

/-- The rows of a result: one for each group of some rows, with its count and its sums. -/
structure Groups (date : String → Option String) (rows : List RequestLogRow)
    (result : List UsageRow) : Prop where
  once : (result.map UsageRow.key).Nodup
  mem_iff : ∀ k, k ∈ result.map UsageRow.key ↔ ∃ row ∈ rows, row.usageKey date = k
  requestCount : ∀ u ∈ result,
    u.requestCount = (Grouping.members (RequestLogRow.usageKey date) rows u.key).length
  tokens : ∀ u ∈ result, ∀ column, (u.total column).toInt
    = ((Grouping.members (RequestLogRow.usageKey date) rows u.key).map fun row =>
        Sql.amount (row.tokens column)).sum

/-- What comes out is read from a row for each group, the newest first. -/
theorem exists_groups_of_summarize (h : summarize reading order date rows = .ok summaries) :
    ∃ result, Groups date rows result ∧
      result.Pairwise (fun u u' => notBefore u.key.date u'.key.date) ∧
      result.mapM (UsageRow.read reading) = .ok summaries := by
  obtain ⟨result, hresult, hread⟩ := summarize_eq_ok_iff.mp h
  have hperm := order.result.perm result
  have hgrouped : result.map UsageRow.key
      = Grouping.keys (RequestLogRow.usageKey date) rows :=
    (Fallible.map_mapM (g := id) (fun k u hu => (usageRow_eq_ok_iff.mp hu).1) hresult).trans
      (List.map_id _)
  have hkeys : ((order.result.arrange result).map UsageRow.key).Perm
      (Grouping.keys (RequestLogRow.usageKey date) rows) := by
    rw [← hgrouped]
    exact hperm.map _
  have hgroup : ∀ u ∈ order.result.arrange result, u.requestCount
        = (Grouping.members (RequestLogRow.usageKey date) rows u.key).length ∧
      ∀ column, summed (Grouping.members (RequestLogRow.usageKey date) rows u.key) column
        = .ok (u.total column) := by
    intro u hu
    obtain ⟨k, -, hk⟩ := Fallible.exists_of_mem_mapM hresult (hperm.mem_iff.mp hu)
    obtain ⟨rfl, hcount, hcolumns⟩ := usageRow_eq_ok_iff.mp hk
    exact ⟨hcount, hcolumns⟩
  refine ⟨order.result.arrange result, {
    once := hkeys.nodup_iff.mpr (Grouping.nodup_keys _)
    mem_iff := fun k => hkeys.mem_iff.trans Grouping.mem_keys
    requestCount := fun u hu => (hgroup u hu).1
    tokens := fun u hu column => (summed_eq_ok_iff.mp ((hgroup u hu).2 column)).2 },
    order.result.sorted result, hread⟩

namespace Groups

theorem covers (h : Groups date rows result) :
    ∀ row ∈ rows, row.usageKey date ∈ result.map UsageRow.key :=
  fun row hrow => (h.mem_iff _).mpr ⟨row, hrow, rfl⟩

/-- All rows are counted. -/
theorem sum_requestCount (h : Groups date rows result) :
    (result.map UsageRow.requestCount).sum = rows.length := by
  rw [List.map_congr_left h.requestCount,
    ← Grouping.sum_length_members h.once h.covers, List.map_map]
  rfl

/-- All tokens are summed up. -/
theorem sum_tokens (h : Groups date rows result) (column : TokenColumn) :
    (result.map fun u => (u.total column).toInt).sum
      = (rows.map fun row => Sql.amount (row.tokens column)).sum := by
  rw [List.map_congr_left fun u hu => h.tokens u hu column,
    ← Grouping.sum_members h.once h.covers, List.map_map]
  rfl

end Groups

/-- All requests are counted, whatever is read of the texts. -/
theorem sum_requestCount_of_summarize
    (h : summarize reading order date rows = .ok summaries) :
    (summaries.map UsageSummary.requestCount).sum = rows.length := by
  obtain ⟨result, hgroups, -, hread⟩ := exists_groups_of_summarize h
  rw [Fallible.map_mapM (fun u s hs => (read_eq_ok hs).2.1) hread]
  exact hgroups.sum_requestCount

/-- All tokens are summed up, whatever is read of the texts. -/
theorem sum_tokens_of_summarize (h : summarize reading order date rows = .ok summaries)
    (column : TokenColumn) :
    (summaries.map fun s => (s.total column).toInt).sum
      = (rows.map fun row => Sql.amount (row.tokens column)).sum := by
  obtain ⟨result, hgroups, -, hread⟩ := exists_groups_of_summarize h
  rw [Fallible.map_mapM (g := fun u => (u.total column).toInt)
    (fun u s hs => congrArg Int64.toInt ((read_eq_ok hs).2.2 column)) hread]
  exact hgroups.sum_tokens column

/-- **What comes out summarizes the rows**, if no text of a group has a NUL in it. -/
theorem summarizes_of_summarize (htexts : ∀ row ∈ rows, (row.usageKey date).NoNul)
    (h : summarize reading order date rows = .ok summaries) :
    Summarizes date rows summaries := by
  obtain ⟨result, hgroups, hsorted, hread⟩ := exists_groups_of_summarize h
  have hsame : ∀ u ∈ result, u.key.readBack reading = u.key := by
    intro u hu
    obtain ⟨row, hrow, hkey⟩ := (hgroups.mem_iff u.key).mp (List.mem_map_of_mem hu)
    exact (hkey ▸ htexts row hrow).readBack_eq reading
  have hkeys : summaries.map UsageSummary.key = result.map UsageRow.key :=
    (Fallible.map_mapM (fun u s hs => (read_eq_ok hs).1) hread).trans
      (List.map_congr_left hsame)
  -- a summary is read from the row of its group
  have hrow : ∀ s ∈ summaries, ∃ u ∈ result, s.key = u.key ∧
      s.requestCount = u.requestCount ∧ ∀ column, s.total column = u.total column := by
    intro s hs
    obtain ⟨u, hu, hus⟩ := Fallible.exists_of_mem_mapM hread hs
    obtain ⟨hkey, hrest⟩ := read_eq_ok hus
    exact ⟨u, hu, hkey.trans (hsame u hu), hrest⟩
  refine {
    once := hkeys ▸ hgroups.once
    mem_iff := hkeys ▸ hgroups.mem_iff
    newestFirst := ?_
    requestCount := fun s hs => ?_
    tokens := fun s hs column => ?_ }
  · rw [← List.pairwise_map (f := UsageRow.key)
      (R := fun k k' => notBefore k.date k'.date = true), ← hkeys,
      List.pairwise_map] at hsorted
    exact hsorted.imp of_decide_eq_true
  · obtain ⟨u, hu, hkey, hcount, -⟩ := hrow s hs
    rw [hcount, hkey, hgroups.requestCount u hu]
  · obtain ⟨u, hu, hkey, -, hcolumns⟩ := hrow s hs
    rw [hcolumns, hkey, hgroups.tokens u hu column]

/-- Summaries do not depend on the order of the rows. -/
theorem Summarizes.perm (h : Summarizes date rows summaries) (hrows : rows.Perm rows') :
    Summarizes date rows' summaries where
  once := h.once
  mem_iff k := (h.mem_iff k).trans (exists_congr fun _ => and_congr_left' hrows.mem_iff)
  newestFirst := h.newestFirst
  requestCount s hs := (h.requestCount s hs).trans (Grouping.members_perm hrows _).length_eq
  tokens s hs column :=
    (h.tokens s hs column).trans ((Grouping.members_perm hrows _).map _).sum_eq

end Summaries

/-! ## The summaries of a table -/

section Query

variable (reading : TextReading) (order : UsageOrder) (date : String → Option String)
  (logs : RequestLogs) (fromDay toDay : String) (key model : Option String)

/-- The query summarizes the rows that `Db::query_logs` selects. -/
theorem queryUsage_eq : queryUsage reading (.ok order) date logs fromDay toDay key model
    = summarize reading order date
        (order.visit (logs.rows.filter (selects date fromDay toDay key model))) := by
  have hselects : (rowsStatement date fromDay toDay key model).selects
      = selects date fromDay toDay key model :=
    funext (selects_rows date fromDay toDay key model)
  rw [← hselects]
  rfl

/-- A row that is selected has a date. -/
theorem isSome_date {row : RequestLogRow}
    (h : row ∈ order.visit (logs.rows.filter (selects date fromDay toDay key model))) :
    (date row.timestamp).isSome := by
  have hselected := (List.mem_filter.mp ((order.visit_perm _).mem_iff.mp h)).2
  cases hday : date row.timestamp with
  | none => simp [selects, hday] at hselected
  | some day => rfl

/-- **The usage summary is a partition of the log.**  What `Db::query_usage` returns adds up
to what the rows say that `Db::query_logs` reads without a limit, and, if no text of a group
has a NUL in it, summarizes these rows; and it returns something exactly if no sum of a group
overflows on the way. -/
theorem queryUsage_summarizes (logOrder : LogOrder) :
    let rows := logOrder.arrange (logs.rows.filter (selects date fromDay toDay key model))
    queryLogs (.ok logOrder) date logs fromDay toDay (-1) 0 key model
        = .ok (rows.map RequestLogRow.read) ∧
      (∀ summaries,
        queryUsage reading (.ok order) date logs fromDay toDay key model = .ok summaries →
        ((∀ row ∈ rows, (row.usageKey date).NoNul) → Summarizes date rows summaries) ∧
          (summaries.map UsageSummary.requestCount).sum = rows.length ∧
          ∀ column, (summaries.map fun s => (s.total column).toInt).sum
            = (rows.map fun row => Sql.amount (row.tokens column)).sum) ∧
      ((∃ summaries, queryUsage reading (.ok order) date logs fromDay toDay key model
          = .ok summaries) ↔
        ∀ k column, Sql.Fits ((Grouping.members (RequestLogRow.usageKey date)
          (order.visit (logs.rows.filter (selects date fromDay toDay key model))) k).map
            fun row => row.tokens column)) := by
  intro rows
  rw [queryUsage_eq]
  refine ⟨rfl, fun summaries hsummaries => ?_, exists_summarize_iff fun row hrow =>
    isSome_date order date logs fromDay toDay key model hrow⟩
  have hrows := (order.visit_perm _).trans (logOrder.perm
    (logs.rows.filter (selects date fromDay toDay key model))).symm
  refine ⟨fun htexts => ?_, ?_, fun column => ?_⟩
  · exact (summarizes_of_summarize (fun row hrow => htexts row (hrows.mem_iff.mp hrow))
      hsummaries).perm hrows
  · rw [sum_requestCount_of_summarize hsummaries, hrows.length_eq]
  · rw [sum_tokens_of_summarize hsummaries, (hrows.map _).sum_eq]

theorem tokens_row (id now : String) (r : RecordRequest) (column : TokenColumn) :
    (r.row id now).tokens column = ((r.log id now).tokens column).map asI64 := by
  cases column <;> rfl

/-- A recorded number adds itself to a sum. -/
theorem amount_asI64 (count : Option UInt32) :
    Sql.amount (count.map asI64) = ((count.map UInt32.toNat).getD 0 : ℕ) := by
  cases count with
  | none => rfl
  | some w => exact asI64_toInt w

/-- Up to `2^31` requests are summarized, whatever numbers were recorded of them. -/
theorem exists_queryUsage_of_recorded (hfew : logs.rows.length ≤ 2 ^ 31)
    (hrecorded : ∀ row ∈ logs.rows, ∃ (id now : String) (r : RecordRequest),
      row = r.row id now) :
    ∃ summaries,
      queryUsage reading (.ok order) date logs fromDay toDay key model = .ok summaries := by
  rw [queryUsage_eq, exists_summarize_iff fun row hrow =>
    isSome_date order date logs fromDay toDay key model hrow]
  intro k column
  refine Sql.fits_of_le (m := 2 ^ 32 - 1) (fun v hv => ?_) ?_
  · obtain ⟨row, hrow, rfl⟩ := List.mem_map.mp hv
    have hmem := List.mem_of_mem_filter ((order.visit_perm _).mem_iff.mp
      (Grouping.mem_members.mp hrow).1)
    obtain ⟨id, now, r, rfl⟩ := hrecorded row hmem
    rw [tokens_row, amount_asI64]
    refine ⟨Int.natCast_nonneg _, Nat.cast_le.mpr ?_⟩
    cases hcount : (r.log id now).tokens column with
    | none => exact Nat.zero_le _
    | some w => exact Nat.le_sub_one_of_lt w.toNat_lt
  · have hlength : ((Grouping.members (RequestLogRow.usageKey date) (order.visit
        (logs.rows.filter (selects date fromDay toDay key model))) k).map
          fun row => row.tokens column).length ≤ 2 ^ 31 := by
      rw [List.length_map]
      refine (List.length_filter_le _ _).trans ?_
      rw [(order.visit_perm _).length_eq]
      exact (List.length_filter_le _ _).trans hfew
    have hsum := Nat.mul_le_mul_right (2 ^ 32 - 1) hlength
    rw [Int64.toInt_maxValue]
    omega

end Query

/-- The rows in the order of the table. -/
def tableOrder : UsageOrder where
  visit rows := rows
  visit_perm rows := List.Perm.refl rows
  result := newestFirst _

/-- A chat completion with this model and these prompt tokens. -/
def loggedRow (id : String) (model : Option String) (promptTokens : Int64) :
    RequestLogRow where
  id
  timestamp := "2025-06-01 12:00:00"
  clientKey := "sk-1"
  protocol := "openai"
  path := "/chat/completions"
  model
  statusCode := 200
  latencyMs := 5
  promptTokens := some promptTokens
  completionTokens := none
  totalTokens := none
  isStream := false
  errorMessage := none

/-- Two chat completions. -/
def twoLogged (model model' : Option String) (promptTokens : Int64) : RequestLogs where
  rows := [loggedRow "id-1" model promptTokens, loggedRow "id-2" model' promptTokens]
  nodup := by simp [loggedRow]

/-- Two models of one day are summarized. -/
theorem queryUsage_summarizes_two :
    let logs := twoLogged (some "mimo-1") (some "mimo-2") 7
    ∃ summaries, queryUsage .toFirstNul (.ok tableOrder) datePart logs "1970-01-01"
        "9999-12-31" none none = .ok summaries ∧
      Summarizes datePart ((newestFirst fun row : RequestLogRow => some row.timestamp).arrange
        (logs.rows.filter (selects datePart "1970-01-01" "9999-12-31" none none)))
        summaries := by
  intro logs
  have hok : (queryUsage .toFirstNul (.ok tableOrder) datePart logs "1970-01-01" "9999-12-31"
      none none).isOk = true := by decide +kernel
  obtain ⟨summaries, hsummaries⟩ := Fallible.isOk_iff.mp hok
  have hall := (queryUsage_summarizes .toFirstNul tableOrder datePart logs "1970-01-01"
    "9999-12-31" none none (newestFirst _)).2.1 summaries hsummaries
  exact ⟨summaries, hsummaries, hall.1 (by decide +kernel)⟩

/-- A sum that overflows fails the query; and two models that differ after a NUL get
summaries that say the same of their groups. -/
theorem not_queryUsage_summarizes :
    queryUsage .toFirstNul (.ok tableOrder) datePart (twoLogged none none Int64.maxValue)
        "1970-01-01" "9999-12-31" none none = .error "integer overflow" ∧
      (queryUsage .toFirstNul (.ok tableOrder) datePart
        (twoLogged (some "mimo\x001") (some "mimo\x002") 7) "1970-01-01" "9999-12-31" none
        none).map (List.map UsageSummary.key)
          = .ok [⟨some "2025-06-01", "sk-1", some "mimo"⟩,
            ⟨some "2025-06-01", "sk-1", some "mimo"⟩] ∧
      ¬ ∀ (reading : TextReading) (order : UsageOrder) (logOrder : LogOrder)
        (date : String → Option String) (logs : RequestLogs) (fromDay toDay : String)
        (key model : Option String), ∃ summaries,
          queryUsage reading (.ok order) date logs fromDay toDay key model = .ok summaries ∧
            Summarizes date
              (logOrder.arrange (logs.rows.filter (selects date fromDay toDay key model)))
              summaries := by
  have herror : queryUsage .toFirstNul (.ok tableOrder) datePart
      (twoLogged none none Int64.maxValue) "1970-01-01" "9999-12-31" none none
        = .error "integer overflow" := by
    decide +kernel
  refine ⟨herror, by decide +kernel, fun hall => ?_⟩
  obtain ⟨summaries, hsummaries, -⟩ := hall .toFirstNul tableOrder (newestFirst _) datePart
    (twoLogged none none Int64.maxValue) "1970-01-01" "9999-12-31" none none
  rw [herror] at hsummaries
  cases hsummaries

end Db

end XiaomiProxy
