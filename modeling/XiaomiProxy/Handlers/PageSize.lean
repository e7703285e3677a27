import XiaomiProxy.Handlers.LogPages

/-!
# The size of a page

What `get_logs` of `handlers/admin.rs` says about a page: how long it gets, and whether
more rows follow it.

The limit is capped from above only, and a negative one is none for the database, so a
page may be as long as the table.  That more rows follow is told from a page of exactly
the limit, so that a page which ends with the last row is taken for one that does not,
and every empty page of limit zero too.  `getLogs_exact_iff` says when a page is right.
-/

namespace XiaomiProxy

/-- A page out of some rows is right when it has at most 500 logs, and says that there is
more exactly if there is a row beyond it. -/
structure LogsPage.Exact (rows : List RequestLogRow) (page : LogsPage) : Prop where
  length_le : page.logs.length ≤ 500
  hasMore_iff : page.hasMore = true ↔
    ∃ row, row ∈ rows.drop (page.offset.toNat + page.logs.length)

namespace LogsQuery

/-- The limit of a query, as `get_logs` caps it. -/
def cappedLimit (query : LogsQuery) : ℤ := min (query.limit.getD 100) 500

/-- How many matching rows there are from the offset on. -/
def remaining (date : String → Option String) (table : RequestLogs) (query : LogsQuery) : ℕ :=
  (query.matching date table).length - (query.offset.getD 0).toNat

/-- When a page comes out right: without a limit if it is short enough, and with one
unless the rows from the offset on are exactly as many. -/
def Fits (date : String → Option String) (table : RequestLogs) (query : LogsQuery) : Prop :=
  if query.cappedLimit < 0 then query.remaining date table ≤ 500
  else (query.remaining date table : ℤ) ≠ query.cappedLimit

/-- How many logs a page has. -/
def returned (date : String → Option String) (table : RequestLogs) (query : LogsQuery) : ℕ :=
  if query.cappedLimit < 0 then query.remaining date table
  else min query.cappedLimit.toNat (query.remaining date table)

theorem length_limited {α : Type} (limit : ℤ) (rows : List α) :
    (Db.limited limit rows).length
      = if limit < 0 then rows.length else min limit.toNat rows.length := by
  rw [Db.limited]
  split
  · rfl
  · rw [List.length_take]

/-- There is a row beyond a place exactly if there are rows enough. -/
theorem exists_mem_drop_iff {α : Type} {rows : List α} {n : ℕ} :
    (∃ row, row ∈ rows.drop n) ↔ n < rows.length := by
  rw [← not_le, ← List.drop_eq_nil_iff, List.eq_nil_iff_forall_not_mem, not_forall_not]

section Page

variable (order : Db.LogOrder) (date : String → Option String) (table : RequestLogs)
  (query : LogsQuery)

/-- The numbers of a page come out right exactly if the query fits. -/
theorem returned_right_iff :
    (query.returned date table ≤ 500 ∧
        ((query.returned date table : ℤ) = query.cappedLimit ↔
          (query.offset.getD 0).toNat + query.returned date table
            < (query.matching date table).length)) ↔
      query.Fits date table := by
  have hcap : query.cappedLimit ≤ 500 := min_le_right _ _
  have hremaining : query.remaining date table
      = (query.matching date table).length - (query.offset.getD 0).toNat := rfl
  rw [Fits, returned]
  by_cases hlimit : query.cappedLimit < 0
  · -- all rows from the offset on, and none beyond
    rw [if_pos hlimit, if_pos hlimit]
    constructor
    · exact fun h => h.1
    · intro hshort
      refine ⟨hshort, ?_⟩
      omega
  · -- of as many rows as the limit the page has all, and does not tell
    rw [if_neg hlimit, if_neg hlimit]
    constructor
    · rintro ⟨-, hmore⟩ hexact
      omega
    · intro hdiffer
      refine ⟨?_, ?_⟩
      · omega
      · omega

/-- The page a query gets. -/
theorem getLogs_eq : ∃ page, Admin.getLogs (.ok order) date table query = .ok page ∧
    page.offset = query.offset.getD 0 ∧
    page.logs.length = query.returned date table ∧
    (page.hasMore = true ↔ (query.returned date table : ℤ) = query.cappedLimit) := by
  have hlength : ((Db.limited query.cappedLimit ((order.arrange
      (query.matching date table)).drop (query.offset.getD 0).toNat)).map
        RequestLogRow.read).length = query.returned date table := by
    rw [List.length_map, length_limited, List.length_drop, (order.perm _).length_eq]
    rfl
  refine ⟨_, rfl, rfl, hlength, ?_⟩
  rw [decide_eq_true_iff]
  exact iff_of_eq (congrArg (fun n : ℕ => (n : ℤ) = query.cappedLimit) hlength)

/-- **A page has at most 500 logs and tells whether there is more, exactly if the query
fits the table.** -/
theorem getLogs_exact_iff :
    ∃ page, Admin.getLogs (.ok order) date table query = .ok page ∧
      (page.Exact (order.arrange (query.matching date table)) ↔ query.Fits date table) := by
  obtain ⟨page, hpage, hoffset, hlength, hmore⟩ := getLogs_eq order date table query
  refine ⟨page, hpage, ?_⟩
  rw [← returned_right_iff]
  constructor
  · rintro ⟨hle, hiff⟩
    rw [exists_mem_drop_iff, hoffset, hlength, (order.perm _).length_eq, hmore] at hiff
    exact ⟨hlength ▸ hle, hiff⟩
  · rintro ⟨hle, hiff⟩
    refine ⟨hlength ▸ hle, ?_⟩
    rw [exists_mem_drop_iff, hoffset, hlength, (order.perm _).length_eq, hmore]
    exact hiff

end Page

/-- A page of three logs out of three rows says that there is more. -/
theorem not_exact_three_of_three :
    (Admin.getLogs (.ok (Db.newestFirst _)) Db.datePart threeRows
        { unfiltered with limit := some 3 }).toOption.map LogsPage.hasMore = some true ∧
      ¬ ∀ (order : Db.LogOrder) (date : String → Option String) (table : RequestLogs)
        (query : LogsQuery), ∃ page, Admin.getLogs (.ok order) date table query = .ok page ∧
          page.Exact (order.arrange (query.matching date table)) := by
  refine ⟨by decide +kernel, fun hall => ?_⟩
  obtain ⟨page, hpage, hexact⟩ := hall (Db.newestFirst _) Db.datePart threeRows
    { unfiltered with limit := some 3 }
  have hmore : (Admin.getLogs (.ok (Db.newestFirst _)) Db.datePart threeRows
      { unfiltered with limit := some 3 }).toOption.map (fun page => (page.hasMore,
        page.offset.toNat + page.logs.length)) = some (true, 3) := by decide +kernel
  rw [hpage] at hmore
  simp only [Except.toOption, Option.map_some, Option.some.injEq, Prod.mk.injEq] at hmore
  have hbeyond := hexact.hasMore_iff.mp hmore.1
  rw [hmore.2, exists_mem_drop_iff] at hbeyond
  exact absurd hbeyond (by decide +kernel)

end LogsQuery

end XiaomiProxy
