import Mathlib

/-!
# A vector of shared, mutable cells

`Vec<Arc<T>>`: a list of allocations whose contents change in place and which
may be held from elsewhere after they left the list.  An allocation is named by
its pointer.  The vector carries the two facts that make a pointer a name — no
two cells share one, and the next pointer handed out is new — so that an update
through a pointer reaches at most one cell and never a later allocation.

* `ofList` — collect values into fresh allocations.
* `push` — allocate one more cell at the end.
* `retain` — keep the cells whose value satisfies a test.
* `modify` — store through a pointer; nothing happens when the cell has left.
-/

universe u v

/-- One allocation: its pointer and its current contents. -/
structure Cell (α : Type u) where
  ptr : ℕ
  val : α
  deriving DecidableEq, Repr

namespace Cell

variable {α : Type u} {β : Type v}

/-- The cell after a store through `ptr`. -/
def update (ptr : ℕ) (f : α → α) (c : Cell α) : Cell α :=
  if c.ptr = ptr then { c with val := f c.val } else c

@[simp] theorem update_ptr (ptr : ℕ) (f : α → α) (c : Cell α) :
    (c.update ptr f).ptr = c.ptr := by
  unfold update
  split <;> rfl

theorem update_val (ptr : ℕ) (f : α → α) (c : Cell α) :
    (c.update ptr f).val = if c.ptr = ptr then f c.val else c.val := by
  unfold update
  split <;> rfl

theorem update_self (f : α → α) (c : Cell α) :
    c.update c.ptr f = { c with val := f c.val } := if_pos rfl

theorem update_of_ne {ptr : ℕ} {c : Cell α} (f : α → α) (h : c.ptr ≠ ptr) :
    c.update ptr f = c := if_neg h

/-- A store that keeps the attribute `g` keeps it on every cell. -/
theorem update_attr {f : α → α} {g : α → β} (h : ∀ x, g (f x) = g x) (ptr : ℕ)
    (c : Cell α) : g (c.update ptr f).val = g c.val := by
  rw [update_val]
  split
  · exact h c.val
  · rfl

end Cell

/-- A vector of cells with distinct pointers, all handed out before `next`. -/
@[ext] structure SharedVec (α : Type u) where
  cells : List (Cell α)
  next : ℕ
  ptr_nodup : (cells.map Cell.ptr).Nodup
  ptr_lt : ∀ c ∈ cells, c.ptr < next

namespace SharedVec

variable {α : Type u} {β : Type v}

instance [DecidableEq α] : DecidableEq (SharedVec α) := fun v w =>
  decidable_of_iff (v.cells = w.cells ∧ v.next = w.next) SharedVec.ext_iff.symm

/-- Two cells of a vector with one pointer are one cell. -/
theorem eq_of_ptr_eq (v : SharedVec α) {c d : Cell α} (hc : c ∈ v.cells)
    (hd : d ∈ v.cells) (h : c.ptr = d.ptr) : c = d :=
  List.inj_on_of_nodup_map v.ptr_nodup hc hd h

/-- Fresh allocations for the values of a list, in order. -/
def ofList (l : List α) : SharedVec α where
  cells := l.zipIdx.map fun p => ⟨p.2, p.1⟩
  next := l.length
  ptr_nodup := by
    have hsnd : (l.zipIdx.map fun p => (⟨p.2, p.1⟩ : Cell α)).map Cell.ptr
        = List.range' 0 l.length := by
      rw [List.map_map]
      exact List.zipIdx_map_snd 0 l
    rw [hsnd]
    exact List.nodup_range'
  ptr_lt := by
    intro c hc
    obtain ⟨p, hp, rfl⟩ := List.mem_map.mp hc
    have := List.snd_lt_add_of_mem_zipIdx hp
    simpa using this

@[simp] theorem ofList_vals (l : List α) :
    (ofList l).cells.map Cell.val = l := by
  rw [ofList, List.map_map]
  exact List.zipIdx_map_fst 0 l

/-- Allocate one more cell at the end. -/
def push (v : SharedVec α) (x : α) : SharedVec α where
  cells := v.cells ++ [⟨v.next, x⟩]
  next := v.next + 1
  ptr_nodup := by
    rw [List.map_append, List.nodup_append]
    refine ⟨v.ptr_nodup, List.nodup_singleton _, ?_⟩
    intro a ha b hb
    obtain ⟨c, hc, rfl⟩ := List.mem_map.mp ha
    -- a fresh pointer is above all that were handed out
    have hlt := v.ptr_lt c hc
    have hbn : b = v.next := by simpa using hb
    omega
  ptr_lt := by
    intro c hc
    rcases List.mem_append.mp hc with hc | hc
    · exact Nat.lt_succ_of_lt (v.ptr_lt c hc)
    · rw [List.mem_singleton.mp hc]
      exact Nat.lt_succ_self _

@[simp] theorem push_cells (v : SharedVec α) (x : α) :
    (v.push x).cells = v.cells ++ [⟨v.next, x⟩] := rfl

@[simp] theorem push_next (v : SharedVec α) (x : α) :
    (v.push x).next = v.next + 1 := rfl

/-- Keep the cells whose value satisfies the test. -/
def retain (v : SharedVec α) (keep : α → Bool) : SharedVec α where
  cells := v.cells.filter fun c => keep c.val
  next := v.next
  ptr_nodup := (List.filter_sublist.map Cell.ptr).nodup v.ptr_nodup
  ptr_lt := fun c hc => v.ptr_lt c (List.mem_of_mem_filter hc)

@[simp] theorem retain_cells (v : SharedVec α) (keep : α → Bool) :
    (v.retain keep).cells = v.cells.filter fun c => keep c.val := rfl

@[simp] theorem retain_next (v : SharedVec α) (keep : α → Bool) :
    (v.retain keep).next = v.next := rfl

/-- Store through a pointer. -/
def modify (v : SharedVec α) (ptr : ℕ) (f : α → α) : SharedVec α where
  cells := v.cells.map (Cell.update ptr f)
  next := v.next
  ptr_nodup := by
    have hptr : (v.cells.map (Cell.update ptr f)).map Cell.ptr
        = v.cells.map Cell.ptr := by
      rw [List.map_map]
      exact List.map_congr_left fun c _ => Cell.update_ptr ptr f c
    rw [hptr]
    exact v.ptr_nodup
  ptr_lt := by
    intro c hc
    obtain ⟨d, hd, rfl⟩ := List.mem_map.mp hc
    rw [Cell.update_ptr]
    exact v.ptr_lt d hd

@[simp] theorem modify_cells (v : SharedVec α) (ptr : ℕ) (f : α → α) :
    (v.modify ptr f).cells = v.cells.map (Cell.update ptr f) := rfl

@[simp] theorem modify_next (v : SharedVec α) (ptr : ℕ) (f : α → α) :
    (v.modify ptr f).next = v.next := rfl

/-- A store through the pointer of a cell is one into that cell. -/
theorem cells_modify_of_split {v : SharedVec α} {before after : List (Cell α)} {c : Cell α}
    (h : v.cells = before ++ c :: after) (f : α → α) :
    (v.modify c.ptr f).cells = before ++ ⟨c.ptr, f c.val⟩ :: after := by
  have hnodup := v.ptr_nodup
  rw [h, List.map_append, List.map_cons, List.nodup_middle, List.nodup_cons,
    List.mem_append, not_or] at hnodup
  have hsame : ∀ cells : List (Cell α), c.ptr ∉ cells.map Cell.ptr →
      cells.map (Cell.update c.ptr f) = cells := by
    intro cells hcells
    refine (List.map_congr_left fun d hd => ?_).trans (List.map_id cells)
    exact Cell.update_of_ne f fun heq => hcells (heq ▸ List.mem_map_of_mem hd)
  rw [modify_cells, h, List.map_append, List.map_cons, hsame before hnodup.1.1,
    hsame after hnodup.1.2, Cell.update_self]

theorem mem_modify {v : SharedVec α} {ptr : ℕ} {f : α → α} {c : Cell α} :
    c ∈ (v.modify ptr f).cells ↔ ∃ d ∈ v.cells, d.update ptr f = c := by
  rw [modify_cells, List.mem_map]

/-- What holds of every cell after a store. -/
theorem forall_mem_modify {v : SharedVec α} {ptr : ℕ} {f : α → α}
    {Q : Cell α → Prop} :
    (∀ c ∈ (v.modify ptr f).cells, Q c) ↔ ∀ c ∈ v.cells, Q (c.update ptr f) := by
  rw [modify_cells, List.forall_mem_map]

/-- A store keeps an attribute it does not write, cell by cell. -/
theorem modify_map_attr (v : SharedVec α) (ptr : ℕ) {f : α → α} {g : α → β}
    (h : ∀ x, g (f x) = g x) :
    (v.modify ptr f).cells.map (fun c => g c.val)
      = v.cells.map fun c => g c.val := by
  rw [modify_cells, List.map_map]
  exact List.map_congr_left fun c _ => Cell.update_attr h ptr c

/-- Storing what a cell holds changes nothing. -/
theorem modify_id (v : SharedVec α) (ptr : ℕ) : v.modify ptr id = v := by
  refine SharedVec.ext (List.map_id'' (fun c => ?_) v.cells) rfl
  unfold Cell.update
  split <;> rfl

/-- Two stores through one pointer are one store. -/
theorem modify_modify (v : SharedVec α) (ptr : ℕ) (f g : α → α) :
    (v.modify ptr f).modify ptr g = v.modify ptr (g ∘ f) := by
  refine SharedVec.ext ?_ rfl
  rw [modify_cells, modify_cells, modify_cells, List.map_map]
  refine List.map_congr_left ?_
  intro c _
  by_cases hc : c.ptr = ptr
  · simp [Cell.update, hc]
  · simp [Cell.update, hc]

/-- Through the pointer of one of its cells, a store is felt exactly when it
changes the contents of that cell. -/
theorem modify_eq_modify_iff (v : SharedVec α) {c : Cell α} (hc : c ∈ v.cells)
    (f g : α → α) : v.modify c.ptr f = v.modify c.ptr g ↔ f c.val = g c.val := by
  constructor
  · intro h
    have hcells : v.cells.map (Cell.update c.ptr f)
        = v.cells.map (Cell.update c.ptr g) := congrArg SharedVec.cells h
    have hat := List.map_inj_left.mp hcells c hc
    simpa [Cell.update_self] using hat
  · intro h
    refine SharedVec.ext (List.map_congr_left fun d hd => ?_) rfl
    by_cases hdc : d.ptr = c.ptr
    · rw [v.eq_of_ptr_eq hd hc hdc, Cell.update_self, Cell.update_self, h]
    · rw [Cell.update_of_ne f hdc, Cell.update_of_ne g hdc]

/-- A store changes a sum over the cells by what it changes of its own cell. -/
theorem sum_modify (v : SharedVec α) {c : Cell α} (hc : c ∈ v.cells) (f : α → α)
    (g : α → ℕ) :
    ((v.modify c.ptr f).cells.map fun d => g d.val).sum + g c.val
      = (v.cells.map fun d => g d.val).sum + g (f c.val) := by
  have hothers : ∀ d ∈ v.cells, d ≠ c → d.update c.ptr f = d := by
    intro d hd hne
    exact Cell.update_of_ne f fun h => hne (v.eq_of_ptr_eq hd hc h)
  have hnodup : v.cells.Nodup := List.Nodup.of_map _ v.ptr_nodup
  obtain ⟨before, after, hcells⟩ := List.append_of_mem hc
  rw [hcells, List.nodup_append, List.nodup_cons] at hnodup
  obtain ⟨-, ⟨hafter, -⟩, hbefore⟩ := hnodup
  have hkept : ∀ part : List (Cell α), (∀ d ∈ part, d ∈ v.cells ∧ d ≠ c) →
      part.map (fun d => g (d.update c.ptr f).val) = part.map fun d => g d.val := by
    intro part hpart
    refine List.map_congr_left ?_
    intro d hd
    rw [hothers d (hpart d hd).1 (hpart d hd).2]
  have hfront := hkept before fun d hd =>
    ⟨hcells ▸ List.mem_append_left _ hd, fun h => hbefore d hd c List.mem_cons_self h⟩
  have hback := hkept after fun d hd =>
    ⟨hcells ▸ List.mem_append_right _ (List.mem_cons_of_mem _ hd),
      fun h => hafter (h ▸ hd)⟩
  rw [modify_cells, List.map_map, hcells]
  simp only [Function.comp_def, List.map_append, List.map_cons, List.sum_append,
    List.sum_cons, hfront, hback, Cell.update_self]
  omega

/-- The first cell whose value satisfies the test. -/
def find? (v : SharedVec α) (test : α → Bool) : Option (Cell α) :=
  v.cells.find? fun c => test c.val

theorem mem_of_find? {v : SharedVec α} {test : α → Bool} {c : Cell α}
    (h : v.find? test = some c) : c ∈ v.cells :=
  List.mem_of_find?_eq_some h

theorem test_of_find? {v : SharedVec α} {test : α → Bool} {c : Cell α}
    (h : v.find? test = some c) : test c.val = true :=
  List.find?_some (p := fun c : Cell α => test c.val) h

theorem find?_eq_none {v : SharedVec α} {test : α → Bool} :
    v.find? test = none ↔ ∀ c ∈ v.cells, ¬ test c.val = true :=
  List.find?_eq_none

/-- A store that the test does not see moves the first match along with its
cell. -/
theorem find?_modify (v : SharedVec α) (ptr : ℕ) {f : α → α} {test : α → Bool}
    (h : ∀ x, test (f x) = test x) :
    (v.modify ptr f).find? test = (v.find? test).map (Cell.update ptr f) := by
  rw [find?, find?, modify_cells, List.find?_map]
  have hcomp : ((fun c : Cell α => test c.val) ∘ Cell.update ptr f)
      = fun c : Cell α => test c.val := by
    funext c
    exact Cell.update_attr h ptr c
  rw [hcomp]

end SharedVec
