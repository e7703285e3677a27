import Mathlib

/-!
# Tables with a primary key

Two views of a collection of keyed values.

* `Book` — the multiset of its pairs of a key and a value.  `put` makes a value the
  only one of its key, `drop` removes a key.  A book is `Single` when no key has two
  values.
* `KeyedTable` — the rows of a table with a primary key: no two rows share a key, and
  the table carries the proof.  `insert`, `insertOrReplace`, `update` and `delete` are
  the statements of the same names.

The `book` of a table under a column is single, and the statements act on it by `put`
and `drop`.  A list of keyed values in which one value is overwritten in place does
the same (`Book.coe_map_eq_put`), so a table can be compared with any other store
through their books.
-/

universe u v w

/-- The pairs of a key and a value a store holds. -/
abbrev Book (κ : Type u) (β : Type v) := Multiset (κ × β)

namespace Book

variable {κ : Type u} {β : Type v} {γ : Type w} [DecidableEq κ] {k : κ} {x y : β}
  {m : Book κ β}

/-- Remove a key. -/
def drop (k : κ) (m : Book κ β) : Book κ β := m.filter fun e => e.1 ≠ k

/-- Make `x` the only value of a key. -/
def put (k : κ) (x : β) (m : Book κ β) : Book κ β := (k, x) ::ₘ m.drop k

/-- No key has two values. -/
def Single (m : Book κ β) : Prop := (m.map Prod.fst).Nodup

theorem drop_eq_self (h : k ∉ m.map Prod.fst) : m.drop k = m := by
  rw [drop, Multiset.filter_eq_self]
  rintro e he rfl
  exact h (Multiset.mem_map_of_mem Prod.fst he)

/-- Two puts of one key agree exactly if they put the same value. -/
theorem put_inj : put k x m = put k y m ↔ x = y := by
  rw [put, put, Multiset.cons_inj_left, Prod.mk.injEq]
  exact and_iff_right rfl

/-- A put of a key that is not there is felt. -/
theorem put_ne_self (h : k ∉ m.map Prod.fst) : put k x m ≠ m := by
  rw [put, drop_eq_self h]
  intro heq
  simpa using congrArg Multiset.card heq

theorem Single.drop (h : m.Single) (k : κ) : (m.drop k).Single :=
  Multiset.nodup_of_le (Multiset.map_le_map (Multiset.filter_le _ m)) h

theorem fst_notMem_drop (k : κ) (m : Book κ β) : k ∉ (m.drop k).map Prod.fst := by
  simp [drop]

theorem Single.put (h : m.Single) (k : κ) (x : β) : (m.put k x).Single := by
  rw [Single, Book.put, Multiset.map_cons, Multiset.nodup_cons]
  exact ⟨fst_notMem_drop k m, h.drop k⟩

/-- The puts of a list of pairs, one after another. -/
def puts (l : List (κ × β)) : Book κ β := l.foldl (fun m e => m.put e.1 e.2) 0

theorem single_puts (l : List (κ × β)) : (puts l).Single := by
  induction l using List.reverseRecOn with
  | nil => exact Multiset.nodup_zero
  | append_singleton l e ih =>
      rw [puts, List.foldl_append]
      exact ih.put e.1 e.2

/-- Putting the pairs of a list leaves the list exactly if no key is put twice. -/
theorem puts_eq_coe_iff {l : List (κ × β)} :
    puts l = (l : Book κ β) ↔ (l.map Prod.fst).Nodup := by
  constructor
  · intro h
    have hsingle := single_puts l
    rwa [h, Single, Multiset.map_coe, Multiset.coe_nodup] at hsingle
  · intro hnodup
    induction l using List.reverseRecOn with
    | nil => rfl
    | append_singleton l e ih =>
        rw [List.map_append, List.map_singleton, List.nodup_append] at hnodup
        obtain ⟨hl, -, hnew⟩ := hnodup
        have habsent : e.1 ∉ (l : Book κ β).map Prod.fst := by
          intro hmem
          rw [Multiset.map_coe, Multiset.mem_coe] at hmem
          exact hnew e.1 hmem e.1 (List.mem_singleton_self _) rfl
        have hlast : puts (l ++ [e]) = (puts l).put e.1 e.2 := by
          rw [puts, List.foldl_append]
          rfl
        rw [hlast, ih hl, put, drop_eq_self habsent, ← Multiset.coe_add, add_comm]
        rfl

omit [DecidableEq κ] in
/-- Two columns over the same distinct keys make one book exactly if they agree. -/
theorem coe_map_eq_iff {l : List γ} {key : γ → κ} {f g : γ → β}
    (hnodup : (l.map key).Nodup) :
    ((l.map fun c => (key c, f c) : List (κ × β)) : Book κ β)
        = (l.map fun c => (key c, g c) : List (κ × β)) ↔ ∀ c ∈ l, f c = g c := by
  constructor
  · intro h c hc
    have hmem : (key c, f c) ∈ ((l.map fun c => (key c, g c) : List (κ × β)) : Book κ β) := by
      rw [← h]
      exact Multiset.mem_coe.mpr (List.mem_map_of_mem hc)
    obtain ⟨d, hd, heq⟩ := List.mem_map.mp (Multiset.mem_coe.mp hmem)
    obtain ⟨hkey, hvalue⟩ := Prod.mk.inj heq
    rw [← hvalue, List.inj_on_of_nodup_map hnodup hd hc hkey]
  · intro h
    exact congrArg _ (List.map_congr_left fun c hc => by rw [h c hc])

/-- **Overwriting in place is a put.**  In a list of keyed values without duplicate
keys, giving one of them a new value puts it. -/
theorem coe_map_eq_put {l : List γ} {g h : γ → κ × β} {c : γ}
    (hnodup : (l.map fun d => (g d).1).Nodup) (hc : c ∈ l) (hself : h c = ((g c).1, x))
    (hothers : ∀ d ∈ l, (g d).1 ≠ (g c).1 → h d = g d) :
    ((l.map h : List (κ × β)) : Book κ β) = put (g c).1 x (l.map g : List (κ × β)) := by
  induction l with
  | nil => cases hc
  | cons d l ih =>
      rw [List.map_cons, List.nodup_cons] at hnodup
      obtain ⟨hnew, hnodup⟩ := hnodup
      have hne : ∀ e ∈ l, (g e).1 ≠ (g d).1 := by
        intro e he heq
        exact hnew (heq ▸ List.mem_map_of_mem he)
      rcases List.mem_cons.mp hc with rfl | hc
      · -- the others have other keys, so they are as they were and `drop` keeps them
        have hrest : l.map h = l.map g :=
          List.map_congr_left fun e he => hothers e (List.mem_cons_of_mem _ he) (hne e he)
        have hmem : (g c).1 ∉ ((l.map g : List (κ × β)) : Book κ β).map Prod.fst := by
          simpa [List.map_map] using fun e he heq => hne e he heq
        rw [List.map_cons, hself, hrest, put, ← Multiset.cons_coe, List.map_cons,
          ← Multiset.cons_coe, drop, Multiset.filter_cons_of_neg _ (by simp)]
        exact congrArg _ (drop_eq_self hmem).symm
      · have hdc : (g d).1 ≠ (g c).1 := (hne c hc).symm
        have hih := ih hnodup hc fun e he => hothers e (List.mem_cons_of_mem _ he)
        rw [List.map_cons, hothers d List.mem_cons_self hdc, ← Multiset.cons_coe, hih, put,
          put, Multiset.cons_swap, List.map_cons, ← Multiset.cons_coe, drop, drop,
          Multiset.filter_cons_of_pos _ (by simpa using hdc)]

end Book

/-- The rows of a table with a primary key. -/
structure KeyedTable {κ : Type u} {α : Type w} (key : α → κ) where
  rows : List α
  nodup : (rows.map key).Nodup

namespace KeyedTable

variable {κ : Type u} {β : Type v} {α : Type w} {key : α → κ}

instance [DecidableEq α] : DecidableEq (KeyedTable key) := fun t t' =>
  decidable_of_iff (t.rows = t'.rows) (by cases t; cases t'; simp)

/-- A table without rows. -/
def empty : KeyedTable key where
  rows := []
  nodup := List.nodup_nil

/-- The keys of the rows. -/
def keys (t : KeyedTable key) : List κ := t.rows.map key

/-- The keys of a table and their values in a column. -/
def book (t : KeyedTable key) (column : α → β) : Book κ β :=
  (t.rows.map fun r => (key r, column r) : List (κ × β))

theorem book_keys (t : KeyedTable key) (column : α → β) :
    (t.book column).map Prod.fst = t.keys := by
  simp [book, keys, List.map_map, Function.comp_def]

theorem book_single (t : KeyedTable key) (column : α → β) : (t.book column).Single := by
  rw [Book.Single, book_keys, Multiset.coe_nodup]
  exact t.nodup

variable [DecidableEq κ]

/-- `DELETE` by primary key. -/
def delete (t : KeyedTable key) (k : κ) : KeyedTable key where
  rows := t.rows.filter fun r => key r ≠ k
  nodup := (List.filter_sublist.map key).nodup t.nodup

/-- `INSERT`: refused if a row has the key. -/
def insert (t : KeyedTable key) (row : α) : Option (KeyedTable key) :=
  if h : key row ∈ t.keys then none
  else some {
    rows := t.rows ++ [row]
    nodup := by
      rw [List.map_append, List.map_singleton, List.nodup_append]
      refine ⟨t.nodup, List.nodup_singleton _, ?_⟩
      intro k hk k' hk' heq
      rw [heq, List.mem_singleton.mp hk'] at hk
      exact h hk }

/-- An insertion that succeeds adds its row at the end. -/
theorem rows_of_insert {t t' : KeyedTable key} {row : α} (h : t.insert row = some t') :
    t'.rows = t.rows ++ [row] := by
  unfold insert at h
  split at h
  · cases h
  · cases h
    rfl

/-- `INSERT OR REPLACE`: the row that had the key goes, and the new row comes. -/
def insertOrReplace (t : KeyedTable key) (row : α) : KeyedTable key where
  rows := (t.delete (key row)).rows ++ [row]
  nodup := by
    rw [List.map_append, List.map_singleton, List.nodup_append]
    refine ⟨(t.delete (key row)).nodup, List.nodup_singleton _, ?_⟩
    intro k hk k' hk'
    obtain ⟨r, hr, rfl⟩ := List.mem_map.mp hk
    rw [List.mem_singleton.mp hk']
    simpa using (List.mem_filter.mp hr).2

/-- `UPDATE` by primary key, of columns that are not in the key.  No row may match. -/
def update (t : KeyedTable key) (k : κ) (f : α → α) (hf : ∀ r, key (f r) = key r) :
    KeyedTable key where
  rows := t.rows.map fun r => if key r = k then f r else r
  nodup := by
    have hkeys : (t.rows.map fun r => if key r = k then f r else r).map key
        = t.rows.map key := by
      rw [List.map_map]
      refine List.map_congr_left ?_
      intro r _
      rw [Function.comp_apply]
      split
      · exact hf r
      · rfl
    rw [hkeys]
    exact t.nodup

section Keys

variable {t : KeyedTable key} {k k' : κ}

theorem mem_keys_delete : k ∈ (t.delete k').keys ↔ k ≠ k' ∧ k ∈ t.keys := by
  simp only [keys, delete, List.mem_map, List.mem_filter, decide_eq_true_eq]
  constructor
  · rintro ⟨r, ⟨hr, hne⟩, rfl⟩
    exact ⟨hne, r, hr, rfl⟩
  · rintro ⟨hne, r, hr, rfl⟩
    exact ⟨r, ⟨hr, hne⟩, rfl⟩

theorem mem_keys_insertOrReplace {row : α} :
    k ∈ (t.insertOrReplace row).keys ↔ k = key row ∨ k ∈ t.keys := by
  have hkeys : (t.insertOrReplace row).keys = (t.delete (key row)).keys ++ [key row] := by
    simp [keys, insertOrReplace]
  rw [hkeys, List.mem_append, List.mem_singleton, mem_keys_delete]
  by_cases h : k = key row <;> simp [h]

end Keys

/-! ## The book of a column -/

section Book

variable (t : KeyedTable key) (column : α → β)

theorem book_delete (k : κ) : (t.delete k).book column = (t.book column).drop k := by
  simp [book, delete, Book.drop, Multiset.filter_coe, List.filter_map, Function.comp_def]

theorem book_insertOrReplace (row : α) :
    (t.insertOrReplace row).book column = (t.book column).put (key row) (column row) := by
  rw [Book.put, ← book_delete, book, insertOrReplace, List.map_append,
    ← Multiset.coe_add, add_comm]
  rfl

/-- An update of a column puts the value, if the key is there. -/
theorem book_update {t : KeyedTable key} {k : κ} {f : α → α} {x : β}
    (hf : ∀ r, key (f r) = key r) (hcolumn : ∀ r, column (f r) = x)
    (hk : k ∈ t.keys) :
    (t.update k f hf).book column = (t.book column).put k x := by
  obtain ⟨row, hrow, rfl⟩ := List.mem_map.mp hk
  rw [book, update, List.map_map, book]
  refine Book.coe_map_eq_put (c := row) (g := fun r => (key r, column r)) t.nodup hrow ?_
    fun r _ hne => ?_
  · simp [hf, hcolumn]
  · simp [if_neg hne]

/-- An update that matches no row changes nothing. -/
theorem update_eq_self {t : KeyedTable key} {k : κ} {f : α → α}
    (hf : ∀ r, key (f r) = key r) (hk : k ∉ t.keys) : t.update k f hf = t := by
  have hrows : (t.update k f hf).rows = t.rows := by
    rw [update]
    conv_rhs => rw [← List.map_id t.rows]
    refine List.map_congr_left ?_
    intro r hr
    have hne : key r ≠ k := by
      rintro rfl
      exact hk (List.mem_map_of_mem hr)
    rw [if_neg hne]
    rfl
  cases t
  simpa [update] using hrows

end Book

end KeyedTable
