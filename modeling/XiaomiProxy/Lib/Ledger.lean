import XiaomiProxy.Lib.Runs

/-!
# What is due and what is on record

A run makes entries due, and puts entries on record.  A step that enters what it makes
due adds the same entries to both (`Entered`); one that does not leaves an entry due
that is not on record.  Then all that is due is on record at the end exactly if every
step on the way entered what it made due (`run_balanced_iff`): no later step makes up
for an entry that is missing.  The same holds where entries are lost off the record
(`run_kept_iff`).
-/

namespace Ledger

universe u v w

variable {σ : Type u} {α : Type v} {β : Type w}

/-- A step that is `entered` adds the same to the record and to what is due.  Any other
adds an entry to what is due, and nothing to the record. -/
def Entered (entered : Prop) (record due record' due' : Multiset β) : Prop :=
  entered ∧ (∃ x, record' = record + x ∧ due' = due + x) ∨
    ¬ entered ∧ record' = record ∧ ∃ x, due' = due + {x}

section Entered

variable {entered : Prop} {record due record' due' : Multiset β}

/-- Nothing is on record that is not due. -/
theorem Entered.le (h : Entered entered record due record' due') (hle : record ≤ due) :
    record' ≤ due' := by
  rcases h with ⟨-, x, rfl, rfl⟩ | ⟨-, rfl, x, rfl⟩
  · exact add_le_add_left hle x
  · exact hle.trans (Multiset.le_add_right _ _)

/-- If all that is due is on record, it stays so exactly if the step is entered. -/
theorem Entered.eq_iff (h : Entered entered record due record' due') (heq : record = due) :
    record' = due' ↔ entered := by
  rcases h with ⟨hentered, x, rfl, rfl⟩ | ⟨hentered, rfl, x, rfl⟩
  · exact iff_of_true (congrArg (· + x) heq) hentered
  · refine iff_of_false (fun hafter => ?_) hentered
    rw [heq] at hafter
    exact Multiset.singleton_ne_zero x (left_eq_add.mp hafter)

/-- No step makes up for a missing entry. -/
theorem Entered.eq_of_eq (h : Entered entered record due record' due') (hle : record ≤ due)
    (hafter : record' = due') : record = due := by
  rcases h with ⟨-, x, rfl, rfl⟩ | ⟨-, rfl, x, rfl⟩
  · exact add_right_cancel hafter
  · have hcard := Multiset.card_le_card hle
    rw [hafter, Multiset.card_add, Multiset.card_singleton] at hcard
    omega

end Entered

/-- **A run that starts with all that is due on record ends so exactly if all its steps
are entered.** -/
theorem run_balanced_iff {step : σ → α → Option σ} {C : σ → α → Prop}
    {record due : σ → Multiset β}
    (hstep : ∀ s a s', step s a = some s' →
      Entered (C s a) (record s) (due s) (record s') (due s'))
    {s t : σ} {as : List α} (hs : record s = due s) (hrun : Runs.run step s as = some t) :
    record t = due t ↔ Runs.Along step C s as :=
  (Runs.run_iff_along_of_invariant (J := fun s => record s ≤ due s)
    (I := fun s => record s = due s)
    (fun s a _ s' hle ha => (hstep s a s' ha).le hle)
    (fun s a _ s' _ heq ha => (hstep s a s' ha).eq_iff heq)
    (fun s a _ s' hle ha hafter => (hstep s a s' ha).eq_of_eq hle hafter)
    hs.le hs hrun).2

/-- A step that is `kept` adds as much to the record as to what is due.  Any other makes
the record fall short by one more entry. -/
def Kept (kept : Prop) (record due record' due' : Multiset β) : Prop :=
  kept ∧ due' + record = due + record' ∨ ¬ kept ∧ ∃ x, due' + record = due + record' + {x}

section Kept

variable {kept : Prop} {record due record' due' : Multiset β}

theorem Kept.le (h : Kept kept record due record' due') (hle : record ≤ due) :
    record' ≤ due' := by
  obtain ⟨rest, rfl⟩ := Multiset.le_iff_exists_add.mp hle
  rcases h with ⟨-, hbalance⟩ | ⟨-, x, hbalance⟩
  · have heq : due' = rest + record' := by
      apply add_right_cancel (b := record)
      rw [hbalance]
      abel
    exact heq ▸ Multiset.le_add_left _ _
  · have heq : due' = rest + {x} + record' := by
      apply add_right_cancel (b := record)
      rw [hbalance]
      abel
    exact heq ▸ Multiset.le_add_left _ _

/-- If the record is complete, it stays so exactly if the step is kept. -/
theorem Kept.eq_iff (h : Kept kept record due record' due') (heq : record = due) :
    record' = due' ↔ kept := by
  subst heq
  rcases h with ⟨hkept, hbalance⟩ | ⟨hkept, x, hbalance⟩
  · rw [add_comm] at hbalance
    exact iff_of_true (add_left_cancel hbalance).symm hkept
  · refine iff_of_false (fun hafter => ?_) hkept
    rw [hafter, add_comm due', left_eq_add] at hbalance
    exact Multiset.singleton_ne_zero x hbalance

/-- No step completes the record. -/
theorem Kept.eq_of_eq (h : Kept kept record due record' due') (hle : record ≤ due)
    (hafter : record' = due') : record = due := by
  subst hafter
  rcases h with ⟨-, hbalance⟩ | ⟨-, x, hbalance⟩
  · rw [add_comm] at hbalance
    exact add_right_cancel hbalance
  · have hcard := Multiset.card_le_card hle
    have hsum := congrArg Multiset.card hbalance
    simp only [Multiset.card_add, Multiset.card_singleton] at hsum
    omega

end Kept

/-- **A run that starts with a complete record ends with one exactly if all its steps are
kept**; and with nothing on record that is not due. -/
theorem run_kept_iff {step : σ → α → Option σ} {C : σ → α → Prop}
    (record due : σ → Multiset β)
    (hstep : ∀ s a s', step s a = some s' →
      Kept (C s a) (record s) (due s) (record s') (due s'))
    {s t : σ} {as : List α} (hs : record s = due s) (hrun : Runs.run step s as = some t) :
    record t ≤ due t ∧ (record t = due t ↔ Runs.Along step C s as) :=
  Runs.run_iff_along_of_invariant (J := fun s => record s ≤ due s)
    (I := fun s => record s = due s)
    (fun s a _ s' hle ha => (hstep s a s' ha).le hle)
    (fun s a _ s' _ heq ha => (hstep s a s' ha).eq_iff heq)
    (fun s a _ s' hle ha hafter => (hstep s a s' ha).eq_of_eq hle hafter)
    hs.le hs hrun

end Ledger
