import XiaomiProxy.Lib.Runs

/-!
# Threads over a shared memory

A program is a function `advance : σ → τ → Option (σ × Multiset τ)`.  A thread in the
local state `t` that runs on the memory `s` takes its next atomic action: `advance s t`
is the memory after it and what becomes of the thread — nothing once it is finished,
itself further on, or itself and a thread it spawned.  It is `none` while the thread is
blocked.

* `step` — the interleavings: any thread may start, and any thread may take its next
  action.
* `held_step` — what the memory counts as handed out is what the threads hold.
* `assertions_step` — every thread keeps its own assertion, and no other thread
  invalidates it.
* `debt_step` — while the memory owes something, some thread is going to pay.
* `exists_advance_of_rank` — among threads that only wait for threads of a higher rank,
  one is not blocked.
* `length_le_of_advances` — actions that each use up some of a potential are at most as
  many as the potential; `exists_run_to_rest` — and if there is always a next one, they
  lead to a state without threads.
-/

universe u v

/-- A memory and the threads under way. -/
@[ext] structure Threads (σ : Type u) (τ : Type v) where
  memory : σ
  threads : Multiset τ

namespace Threads

variable {σ : Type u} {τ : Type v}

instance [DecidableEq σ] [DecidableEq τ] : DecidableEq (Threads σ τ) := fun m m' =>
  decidable_of_iff (m.memory = m'.memory ∧ m.threads = m'.threads) Threads.ext_iff.symm

/-- A thread starts, or takes its next action. -/
inductive Action (τ : Type v) where
  | start (t : τ)
  | advance (t : τ)
  deriving DecidableEq, Repr

section Held

variable {m : Threads σ τ} {share : τ → ℕ} {t : τ}

/-- What the threads hold of something, together. -/
def held (share : τ → ℕ) (m : Threads σ τ) : ℕ := (m.threads.map share).sum

theorem held_eq_zero : held share m = 0 ↔ ∀ t ∈ m.threads, share t = 0 := by
  rw [held, Multiset.sum_eq_zero_iff]
  simp

/-- What is held is held by some thread. -/
theorem exists_of_held_ne_zero (h : held share m ≠ 0) : ∃ t ∈ m.threads, share t ≠ 0 := by
  by_contra hnone
  push Not at hnone
  exact h (held_eq_zero.mpr hnone)

theorem le_held (share : τ → ℕ) (h : t ∈ m.threads) : share t ≤ held share m :=
  Multiset.single_le_sum (fun _ _ => Nat.zero_le _) _ (Multiset.mem_map_of_mem share h)

end Held

section Step

variable [DecidableEq τ]

/-- One action, of any of the threads under way or of one that starts.  Threads in the
same local state are interchangeable. -/
def step (entry : τ → Bool) (advance : σ → τ → Option (σ × Multiset τ))
    (m : Threads σ τ) : Action τ → Option (Threads σ τ)
  | .start t => if entry t then some { m with threads := t ::ₘ m.threads } else none
  | .advance t =>
      if t ∈ m.threads then
        (advance m.memory t).map fun next =>
          { memory := next.1, threads := next.2 + m.threads.erase t }
      else none

variable {entry : τ → Bool} {advance : σ → τ → Option (σ × Multiset τ)}
  {m m' : Threads σ τ} {a : Action τ} {t : τ}

theorem step_start : step entry advance m (.start t) = some m' ↔
    entry t = true ∧ m' = { m with threads := t ::ₘ m.threads } := by
  rw [step, Option.ite_none_right_eq_some, Option.some.injEq, eq_comm (a := m')]

/-- A thread that advances is one of those under way; the others stay as they are. -/
theorem step_advance : step entry advance m (.advance t) = some m' ↔
    ∃ others memory left, m.threads = t ::ₘ others ∧
      advance m.memory t = some (memory, left) ∧ m' = ⟨memory, left + others⟩ := by
  rw [step, Option.ite_none_right_eq_some, Option.map_eq_some_iff]
  constructor
  · rintro ⟨hmem, ⟨memory, left⟩, hadvance, rfl⟩
    exact ⟨m.threads.erase t, memory, left, (Multiset.cons_erase hmem).symm, hadvance, rfl⟩
  · rintro ⟨others, memory, left, hthreads, hadvance, rfl⟩
    refine ⟨?_, (memory, left), hadvance, ?_⟩
    · rw [hthreads]
      exact Multiset.mem_cons_self t others
    · rw [hthreads, Multiset.erase_cons_head]

/-- The two kinds of steps. -/
theorem step_cases (h : step entry advance m a = some m') :
    (∃ t, a = .start t ∧ entry t = true ∧ m' = { m with threads := t ::ₘ m.threads }) ∨
      ∃ t others memory left, a = .advance t ∧ m.threads = t ::ₘ others ∧
        advance m.memory t = some (memory, left) ∧ m' = ⟨memory, left + others⟩ := by
  cases a with
  | start t =>
      obtain ⟨hentry, heq⟩ := step_start.mp h
      exact Or.inl ⟨t, rfl, hentry, heq⟩
  | advance t =>
      obtain ⟨others, memory, left, hthreads, hadvance, heq⟩ := step_advance.mp h
      exact Or.inr ⟨t, others, memory, left, rfl, hthreads, hadvance, heq⟩

/-- Some run leads from one to the other. -/
def Reaches (entry : τ → Bool) (advance : σ → τ → Option (σ × Multiset τ))
    (m m' : Threads σ τ) : Prop :=
  ∃ as, Runs.run (step entry advance) m as = some m'

@[refl] theorem Reaches.refl (m : Threads σ τ) : Reaches entry advance m m := ⟨[], rfl⟩

@[trans] theorem Reaches.trans {m₁ m₂ m₃ : Threads σ τ} (h₁ : Reaches entry advance m₁ m₂)
    (h₂ : Reaches entry advance m₂ m₃) : Reaches entry advance m₁ m₃ := by
  obtain ⟨as, has⟩ := h₁
  obtain ⟨bs, hbs⟩ := h₂
  exact ⟨as ++ bs, Runs.run_append_eq_some.mpr ⟨m₂, has, hbs⟩⟩

theorem reaches_start (s : σ) (others : Multiset τ) (hentry : entry t = true) :
    Reaches entry advance ⟨s, others⟩ ⟨s, t ::ₘ others⟩ :=
  ⟨[.start t], Runs.run_cons_eq_some.mpr ⟨_, step_start.mpr ⟨hentry, rfl⟩, rfl⟩⟩

/-- One thread advances while the others wait. -/
theorem reaches_advance {s s' : σ} {left : Multiset τ} (others : Multiset τ)
    (hadvance : advance s t = some (s', left)) :
    Reaches entry advance ⟨s, t ::ₘ others⟩ ⟨s', left + others⟩ :=
  ⟨[.advance t], Runs.run_cons_eq_some.mpr
    ⟨_, step_advance.mpr ⟨others, s', left, rfl, hadvance, rfl⟩, rfl⟩⟩

/-- A thread goes on. -/
theorem reaches_next {s s' : σ} {t' : τ} (others : Multiset τ)
    (hadvance : advance s t = some (s', {t'})) :
    Reaches entry advance ⟨s, t ::ₘ others⟩ ⟨s', t' ::ₘ others⟩ := by
  have h : Reaches entry advance _ _ := reaches_advance others hadvance
  rwa [Multiset.singleton_add] at h

/-- A thread ends. -/
theorem reaches_end {s s' : σ} (others : Multiset τ) (hadvance : advance s t = some (s', 0)) :
    Reaches entry advance ⟨s, t ::ₘ others⟩ ⟨s', others⟩ := by
  have h : Reaches entry advance _ _ := reaches_advance others hadvance
  rwa [zero_add] at h

/-! ## What the threads hold -/

/-- **The rule of what is handed out.**  If a thread starts with nothing, and an action of
a thread whose share is counted takes and returns as much as the memory counts, then the
memory counts what the threads hold. -/
theorem held_step (share : τ → ℕ) (count : σ → ℕ)
    (hentry : ∀ t, entry t = true → share t = 0)
    (hadvance : ∀ s t s' left, advance s t = some (s', left) → share t ≤ count s →
      count s' + share t = count s + (left.map share).sum)
    (hm : count m.memory = held share m) (h : step entry advance m a = some m') :
    count m'.memory = held share m' := by
  rcases step_cases h with ⟨t, -, hstart, rfl⟩ |
    ⟨t, others, memory, left, -, hthreads, hnext, rfl⟩
  · rw [held, Multiset.map_cons, Multiset.sum_cons, hentry t hstart, zero_add]
    exact hm
  · rw [held, hthreads, Multiset.map_cons, Multiset.sum_cons] at hm
    have hbalance := hadvance _ _ _ _ hnext (by omega)
    rw [held, Multiset.map_add, Multiset.sum_add]
    show count memory = _
    omega

/-! ## Assertions of single threads -/

/-- Every thread satisfies its assertion. -/
def Asserts (A : σ → τ → Prop) (m : Threads σ τ) : Prop := ∀ t ∈ m.threads, A m.memory t

/-- **The rule of assertions.**  Among the states of an invariant: if an action of a
thread establishes the assertions of what becomes of it, and keeps those of the other
threads, all threads keep their assertions. -/
theorem assertions_step {A : σ → τ → Prop} {J : Threads σ τ → Prop}
    (hentry : ∀ s t, entry t = true → A s t)
    (hown : ∀ s t s' left, advance s t = some (s', left) → A s t → ∀ t' ∈ left, A s' t')
    (hothers : ∀ m t u others s' left, J m → m.threads = t ::ₘ others → u ∈ others →
      advance m.memory t = some (s', left) → A m.memory u → A s' u)
    (hJ : J m) (hm : Asserts A m) (h : step entry advance m a = some m') :
    Asserts A m' := by
  rcases step_cases h with ⟨t, -, hstart, rfl⟩ |
    ⟨t, others, memory, left, -, hthreads, hnext, rfl⟩
  · intro u hu
    rcases Multiset.mem_cons.mp hu with rfl | hu
    · exact hentry _ _ hstart
    · exact hm u hu
  · intro u hu
    rcases Multiset.mem_add.mp hu with hu | hu
    · have ht : t ∈ m.threads := by
        rw [hthreads]
        exact Multiset.mem_cons_self t others
      exact hown _ _ _ _ hnext (hm t ht) u hu
    · have hu' : u ∈ m.threads := by
        rw [hthreads]
        exact Multiset.mem_cons_of_mem hu
      exact hothers m t u others memory left hJ hthreads hu hnext (hm u hu')

/-! ## Debts -/

/-- While the memory owes something, one of the threads is going to pay. -/
def Backed (Owed : σ → Prop) (Pays : τ → Prop) (m : Threads σ τ) : Prop :=
  Owed m.memory → ∃ t ∈ m.threads, Pays t

/-- **The rule of debts.**  If a debt after an action of a thread that keeps its assertion
is backed by what becomes of the thread, or was owed before and not the thread's to pay,
then debts stay backed. -/
theorem debt_step {A : σ → τ → Prop} {Owed : σ → Prop} {Pays : τ → Prop}
    (hadvance : ∀ s t s' left, advance s t = some (s', left) → A s t → Owed s' →
      (∃ t' ∈ left, Pays t') ∨ Owed s ∧ ¬ Pays t)
    (hA : Asserts A m) (hm : Backed Owed Pays m) (h : step entry advance m a = some m') :
    Backed Owed Pays m' := by
  rcases step_cases h with ⟨t, -, -, rfl⟩ | ⟨t, others, memory, left, -, hthreads, hnext, rfl⟩
  · intro howed
    obtain ⟨t', hmem, hpays⟩ := hm howed
    exact ⟨t', Multiset.mem_cons_of_mem hmem, hpays⟩
  · intro howed
    have ht : t ∈ m.threads := by
      rw [hthreads]
      exact Multiset.mem_cons_self t others
    rcases hadvance _ _ _ _ hnext (hA t ht) howed with ⟨t', hmem, hpays⟩ | ⟨hbefore, hnot⟩
    · exact ⟨t', Multiset.mem_add.mpr (Or.inl hmem), hpays⟩
    · obtain ⟨t', hmem, hpays⟩ := hm hbefore
      rw [hthreads] at hmem
      rcases Multiset.mem_cons.mp hmem with rfl | hmem
      · exact absurd hpays hnot
      · exact ⟨t', Multiset.mem_add.mpr (Or.inr hmem), hpays⟩

/-! ## Progress -/

/-- **The rule of ranks.**  If whoever is blocked waits for a thread of a higher rank,
one of the threads can advance. -/
theorem exists_advance_of_rank (rank : τ → ℕ)
    (hwaits : ∀ t ∈ m.threads, advance m.memory t = none →
      ∃ t' ∈ m.threads, rank t < rank t')
    (hsome : m.threads ≠ 0) : ∃ t m', step entry advance m (.advance t) = some m' := by
  obtain ⟨t, hmem, htop⟩ : ∃ t ∈ m.threads, ∀ t' ∈ m.threads, rank t' ≤ rank t := by
    obtain ⟨t, ht, hmax⟩ := Finset.exists_max_image m.threads.toFinset rank
      ((Multiset.toFinset_nonempty).mpr hsome)
    exact ⟨t, Multiset.mem_toFinset.mp ht, fun t' ht' =>
      hmax t' (Multiset.mem_toFinset.mpr ht')⟩
  cases hnext : advance m.memory t with
  | none =>
      obtain ⟨t', hmem', hlt⟩ := hwaits t hmem hnext
      exact absurd (htop t' hmem') (not_le.mpr hlt)
  | some next =>
      obtain ⟨memory, left⟩ := next
      exact ⟨t, _, step_advance.mpr ⟨m.threads.erase t, memory, left,
        (Multiset.cons_erase hmem).symm, hnext, rfl⟩⟩

/-- **The rule of potentials.**  If every action of a thread uses up some of the
potential, the actions that can be taken without a thread starting are at most as many
as the potential. -/
theorem length_le_of_advances {potential : Threads σ τ → ℕ}
    (hstep : ∀ m t m', step entry advance m (.advance t) = some m' →
      potential m' < potential m)
    {ts : List τ} (h : Runs.run (step entry advance) m (ts.map .advance) = some m') :
    ts.length + potential m' ≤ potential m := by
  induction ts generalizing m with
  | nil =>
      cases h
      simp
  | cons t ts ih =>
      obtain ⟨next, hnext, hrest⟩ := Runs.run_cons_eq_some.mp h
      have hlt := hstep m t next hnext
      have hle := ih hrest
      rw [List.length_cons]
      omega

/-- If moreover one of the threads can always advance, they can all be brought to their
end. -/
theorem exists_run_to_rest {potential : Threads σ τ → ℕ} {J : Threads σ τ → Prop}
    (hstep : ∀ m t m', step entry advance m (.advance t) = some m' →
      potential m' < potential m)
    (hJ : ∀ m t m', J m → step entry advance m (.advance t) = some m' → J m')
    (hprogress : ∀ m, J m → m.threads ≠ 0 →
      ∃ t m', step entry advance m (.advance t) = some m')
    (hm : J m) : ∃ (ts : List τ) (m' : Threads σ τ),
      Runs.run (step entry advance) m (ts.map .advance) = some m' ∧
      m'.threads = 0 := by
  induction hn : potential m using Nat.strong_induction_on generalizing m with
  | _ n ih =>
      by_cases hrest : m.threads = 0
      · exact ⟨[], m, rfl, hrest⟩
      · obtain ⟨t, next, hnext⟩ := hprogress m hm hrest
        have hlt : potential next < n := hn ▸ hstep m t next hnext
        obtain ⟨ts, m', hrun, hdone⟩ := ih _ hlt (hJ m t next hm hnext) rfl
        exact ⟨t :: ts, m', Runs.run_cons_eq_some.mpr ⟨next, hnext, hrun⟩, hdone⟩

end Step

end Threads
