import XiaomiProxy.Proxy.PoolThreads

/-!
# What a read guard keeps

While a call holds a read guard of the vector, the entries stay where they are, under
their keys and with their weights, whatever the other calls and the recovery tasks do
(`frozen`): the vector and the weights change under the write guard only.  So the pointers
a call has collected go on leading to entries of the vector (`present_of_run`).
-/

namespace XiaomiProxy

namespace PoolMemory

/-- What does not change under a read guard. -/
def layout (s : PoolMemory) : List (ℕ × String × UInt32) :=
  s.keys.cells.map fun k => (k.ptr, k.val.key, k.val.weight)

/-- The pointers of the vector. -/
def ptrs (s : PoolMemory) : List ℕ := s.keys.cells.map Cell.ptr

theorem ptrs_eq_layout (s : PoolMemory) : s.ptrs = s.layout.map Prod.fst := by
  rw [ptrs, layout, List.map_map]
  rfl

theorem layout_store (s : PoolMemory) (ptr : ℕ) {f : PooledKey → PooledKey}
    (hkey : ∀ e, (f e).key = e.key) (hweight : ∀ e, (f e).weight = e.weight) :
    (s.store ptr f).layout = s.layout := by
  rw [layout, layout, store, SharedVec.modify_cells, List.map_map]
  refine List.map_congr_left fun k _ => ?_
  simp only [Function.comp_apply, Cell.update_ptr, Cell.update_attr hkey,
    Cell.update_attr hweight]

theorem ptrs_store (s : PoolMemory) (ptr : ℕ) (f : PooledKey → PooledKey) :
    (s.store ptr f).ptrs = s.ptrs := by
  rw [ptrs, ptrs, store, SharedVec.modify_cells, List.map_map]
  exact List.map_congr_left fun k _ => Cell.update_ptr ptr f k

end PoolMemory

namespace PoolThread

/-- The pointers a thread holds under its read guard. -/
def pointers : PoolThread → List ℕ
  | .acquireFilter healthy rest => healthy ++ rest
  | .acquireCount ptr _ | .successFound ptr | .failureFound ptr _
  | .failureCounted ptr _ _ | .failureTripped ptr _ => [ptr]
  | _ => []

theorem holdsRead_of_pointers {t : PoolThread} (h : t.pointers ≠ []) : t.holdsRead = 1 := by
  cases t <;> first | rfl | exact absurd rfl h

/-- The pointers of the thread lead to entries of the vector. -/
def Present (s : PoolMemory) (t : PoolThread) : Prop := ∀ ptr ∈ t.pointers, ptr ∈ s.ptrs

section Moves

variable {s s' : PoolMemory} {t u : PoolThread} {left : Multiset PoolThread}

/-- **A read guard freezes the vector.** -/
theorem Moves.frozen (h : Moves s t s' left) (hread : s.readers ≠ 0)
    (hwrite : t.holdsWrite = 0) : s'.layout = s.layout := by
  cases h with
  | countRequest ptr | clearErrors ptr | countError ptr | trip ptr | wake ptr
  | recovered ptr =>
      refine s.layout_store ptr ?_ ?_ <;> exact fun _ => rfl
  | weigh | revive | forgive => cases hwrite
  | push _ _ unread | retain _ _ unread => exact absurd unread hread
  | _ => rfl

theorem Present.of_layout (h : Present s u) (heq : s'.layout = s.layout) : Present s' u := by
  intro ptr hptr
  rw [PoolMemory.ptrs_eq_layout, heq, ← PoolMemory.ptrs_eq_layout]
  exact h ptr hptr

theorem Present.of_ptrs (h : Present s t) (heq : s'.ptrs = s.ptrs)
    (hsub : ∀ ptr ∈ u.pointers, ptr ∈ t.pointers) : Present s' u := by
  intro ptr hptr
  rw [heq]
  exact h ptr (hsub ptr hptr)

theorem mem_of_selectAmong {index : UInt64} {keys : List (Cell PooledKey)}
    {k : Cell PooledKey} (h : KeyPool.selectAmong index keys = .ok k) : k ∈ keys := by
  cases keys with
  | nil => cases h
  | cons first rest =>
      simp only [KeyPool.selectAmong] at h
      split at h
      · cases h
      · rw [← Except.ok.inj h]
        cases hscan : KeyPool.scan (index % (KeyPool.totalWeight (first :: rest)).toUInt64) 0
            (first :: rest) with
        | none => exact List.mem_cons_self
        | some l => exact KeyPool.mem_of_scan hscan

theorem mem_of_at? {ptr : ℕ} {k : Cell PooledKey} (h : s.at? ptr = some k) :
    k ∈ s.keys.cells ∧ k.ptr = ptr :=
  ⟨List.mem_of_find?_eq_some h,
    by simpa using List.find?_some (p := fun k' : Cell PooledKey => k'.ptr = ptr) h⟩

/-- The pointers a thread goes on with lead to entries. -/
theorem Present.own (h : Present s t) (hmoves : Moves s t s' left) :
    ∀ t' ∈ left, Present s' t' := by
  have hfound : ∀ (key : String) (next : Cell PooledKey → PoolThread),
      (∀ k, (next k).pointers = [k.ptr]) → Present s (found (s.entryOf? key) next) := by
    intro key next hnext
    cases hentry : s.entryOf? key with
    | none => exact fun ptr hptr => absurd hptr (List.not_mem_nil)
    | some k =>
        intro ptr hptr
        rw [show (found (some k) next) = next k from rfl, hnext,
          List.mem_singleton] at hptr
        rw [hptr]
        exact List.mem_map_of_mem (SharedVec.mem_of_find? hentry)
  cases hmoves with
  | readEntries =>
      intro t' ht'
      obtain rfl := Multiset.mem_singleton.mp ht'
      exact fun ptr hptr => hptr
  | load healthy rest ptr =>
      intro t' ht'
      obtain rfl := Multiset.mem_singleton.mp ht'
      refine h.of_ptrs rfl fun p hp => ?_
      simp only [pointers, List.mem_append, List.mem_cons] at hp ⊢
      split at hp
      · simp only [List.mem_append, List.mem_singleton] at hp
        tauto
      · tauto
  | select selected =>
      intro t' ht'
      obtain rfl := Multiset.mem_singleton.mp ht'
      intro ptr hptr
      obtain rfl := List.mem_singleton.mp hptr
      obtain ⟨p, -, hat⟩ := List.mem_filterMap.mp (mem_of_selectAmong selected)
      exact List.mem_map_of_mem (mem_of_at? hat).1
  | findSuccess acquired =>
      intro t' ht'
      obtain rfl := Multiset.mem_singleton.mp ht'
      exact hfound acquired.key _ fun _ => rfl
  | findFailure acquired =>
      intro t' ht'
      obtain rfl := Multiset.mem_singleton.mp ht'
      exact hfound acquired.key _ fun _ => rfl
  | countError ptr key | trip ptr key =>
      intro t' ht'
      obtain rfl := Multiset.mem_singleton.mp ht'
      exact h.of_ptrs (s.ptrs_store ptr _) fun _ hp => hp
  | dropState | dropRead | recovered | dropWrite =>
      exact fun t' ht' => absurd ht' (Multiset.notMem_zero t')
  | spawn ptr =>
      intro t' ht' p hp
      rcases Multiset.mem_cons.mp ht' with rfl | ht'
      · exact absurd hp List.not_mem_nil
      · obtain rfl := Multiset.mem_singleton.mp ht'
        exact absurd hp List.not_mem_nil
  | _ =>
      intro t' ht' p hp
      obtain rfl := Multiset.mem_singleton.mp ht'
      exact absurd hp List.not_mem_nil

end Moves

end PoolThread

namespace PoolMachine

open PoolThread

section Runs

variable {m : PoolMachine} {t u : PoolThread} {others left : Multiset PoolThread}
  {s' : PoolMemory}

/-- While another thread holds a read guard, an action freezes the vector. -/
theorem Guarded.frozen (h : Guarded m) (hthreads : m.threads = t ::ₘ others)
    (hu : u ∈ m.threads) (hread : u.holdsRead = 1)
    (hnext : advance m.memory t = some (s', left)) :
    s'.layout = m.memory.layout := by
  have hreaders : m.memory.readers ≠ 0 := by
    have hle := Threads.le_held holdsRead hu
    rw [hread, ← h.read] at hle
    omega
  refine (moves_of_advance hnext).frozen hreaders ?_
  by_contra hwrite
  have ht : t ∈ m.threads := by
    rw [hthreads]
    exact Multiset.mem_cons_self t others
  have hle := Threads.le_held holdsWrite ht
  rw [← h.write] at hle
  have hwriting : m.memory.writing = true := by
    by_contra hnot
    rw [Bool.eq_false_of_not_eq_true hnot, Bool.toNat_false] at hle
    omega
  exact hreaders (h.exclusive hwriting)

/-- Along a run, the pointers of a call under its read guard lead to entries. -/
theorem present_of_run {p : KeyPool} {as : List (Threads.Action PoolThread)}
    (hrun : Runs.run step (idle p) as = some m) : Threads.Asserts Present m := by
  have hstart : Threads.Asserts Present (idle p) := by
    intro t ht
    obtain ⟨task, -, rfl⟩ := List.mem_map.mp (Multiset.mem_coe.mp ht)
    exact fun ptr hptr => absurd hptr List.not_mem_nil
  refine (Runs.run_invariant (I := fun m => Guarded m ∧ Threads.Asserts Present m)
    (fun m a m' ⟨hguarded, hpresent⟩ hstep => ⟨hguarded.step hstep, ?_⟩)
    ⟨guarded_idle p, hstart⟩ hrun).2
  refine Threads.assertions_step (J := Guarded) (fun s t hentry => ?_)
    (fun _ _ _ _ hnext h => h.own (moves_of_advance hnext)) ?_ hguarded hpresent hstep
  · have hnone : t.pointers = [] := by cases t <;> first | rfl | cases hentry
    rw [Present, hnone]
    exact fun ptr hptr => absurd hptr List.not_mem_nil
  · intro m t u others s' left hm hthreads hu hnext h
    by_cases hnone : u.pointers = []
    · rw [Present, hnone]
      exact fun ptr hptr => absurd hptr List.not_mem_nil
    · refine h.of_layout (hm.frozen hthreads (u := u) ?_ (holdsRead_of_pointers hnone) hnext)
      rw [hthreads]
      exact Multiset.mem_cons_of_mem hu

end Runs

end PoolMachine

end XiaomiProxy
