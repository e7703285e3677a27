import Mathlib

/-!
# The last write wins

A set under a sequence of writes, each of which puts a key in or takes it out.
Whether a key is in the set in the end is what the last write on it said, or what held
at the start if there was none (`mem_foldl_apply`).

Two copies of a set that get the same writes in different orders therefore agree on a
key exactly if the last write on it is of the same kind in both
(`mem_iff_mem_iff_last_eq`).
-/

universe u

/-- Put a key in, or take it out. -/
structure Write (κ : Type u) where
  key : κ
  present : Bool
  deriving DecidableEq, Repr

namespace Write

variable {κ : Type u} [DecidableEq κ]

/-- The set after a write. -/
def apply (s : Finset κ) (w : Write κ) : Finset κ :=
  if w.present then insert w.key s else s.erase w.key

/-- What the last write on a key said. -/
def last (k : κ) (ws : List (Write κ)) : Option Bool :=
  ((ws.filter fun w => w.key = k).getLast?).map present

section Last

variable {k : κ} {ws ws' : List (Write κ)} {w : Write κ} {s : Finset κ}

theorem last_append_singleton :
    last k (ws ++ [w]) = if w.key = k then some w.present else last k ws := by
  by_cases h : w.key = k <;> simp [last, List.filter_append, h]

theorem last_eq_none_iff : last k ws = none ↔ ∀ w ∈ ws, w.key ≠ k := by
  simp [last]

theorem mem_apply : k ∈ apply s w ↔ if w.key = k then w.present = true else k ∈ s := by
  unfold apply
  by_cases hkey : w.key = k
  · cases hpresent : w.present <;> simp [hkey]
  · cases hpresent : w.present <;> simp [hkey, Ne.symm hkey]

/-- **The last write wins.** -/
theorem mem_foldl_apply (k : κ) (s : Finset κ) (ws : List (Write κ)) :
    k ∈ ws.foldl apply s ↔ (last k ws).getD (decide (k ∈ s)) = true := by
  induction ws using List.reverseRecOn with
  | nil => simp [last]
  | append_singleton ws w ih =>
      rw [List.foldl_append, List.foldl_cons, List.foldl_nil, mem_apply,
        last_append_singleton]
      split
      · rfl
      · exact ih

/-- **Two copies agree on a key exactly if its last writes do.** -/
theorem mem_iff_mem_iff_last_eq (hperm : ws.Perm ws') (k : κ) (s : Finset κ) :
    (k ∈ ws.foldl apply s ↔ k ∈ ws'.foldl apply s) ↔ last k ws = last k ws' := by
  rw [mem_foldl_apply, mem_foldl_apply]
  have hnone : last k ws = none ↔ last k ws' = none := by
    simp only [last_eq_none_iff, hperm.mem_iff]
  cases hlast : last k ws with
  | none => simp [hnone.mp hlast]
  | some b =>
      cases hlast' : last k ws' with
      | none => simp [hnone.mpr hlast'] at hlast
      | some b' =>
          rw [Option.getD_some, Option.getD_some, Option.some.injEq]
          exact Bool.eq_iff_iff.symm

end Last

end Write
