import Mathlib

/-!
# Grouping a list by a key

The elements of a list by a key `f`: which keys occur, each once (`keys`), and the elements
of each (`members`).  The groups of keys that cover a list put it together again
(`flatMap_members_perm`), so what is summed up over the groups is summed up over the list
(`sum_members`).
-/

namespace Grouping

universe u v

variable {α : Type u} {κ : Type v} [DecidableEq κ] (f : α → κ)

/-- The keys that occur in a list, each once. -/
def keys (l : List α) : List κ := (l.map f).dedup

/-- The elements of a list with a key, in the order of the list. -/
def members (l : List α) (k : κ) : List α := l.filter fun a => f a = k

variable {f} {l l' : List α} {k : κ}

theorem nodup_keys (l : List α) : (keys f l).Nodup := List.nodup_dedup _

theorem mem_keys : k ∈ keys f l ↔ ∃ a ∈ l, f a = k := by
  rw [keys, List.mem_dedup, List.mem_map]

theorem mem_members {a : α} : a ∈ members f l k ↔ a ∈ l ∧ f a = k := by
  rw [members, List.mem_filter, decide_eq_true_iff]

/-- A list in another order has the same groups, each in another order. -/
theorem members_perm (h : l.Perm l') (k : κ) : (members f l k).Perm (members f l' k) :=
  h.filter _

/-- The other groups are those of the other elements. -/
theorem members_filter_ne {k' : κ} (hne : k' ≠ k) :
    members f (l.filter fun a => ¬ f a = k) k' = members f l k' := by
  rw [members, members, List.filter_filter]
  refine List.filter_congr fun a _ => ?_
  by_cases ha : f a = k'
  · simp [ha, hne]
  · simp [ha]

/-- **The groups are a partition.** -/
theorem flatMap_members_perm {ks : List κ} (hnodup : ks.Nodup) (hcover : ∀ a ∈ l, f a ∈ ks) :
    (ks.flatMap (members f l)).Perm l := by
  induction ks generalizing l with
  | nil =>
      have hempty : l = [] :=
        List.eq_nil_iff_forall_not_mem.mpr fun a ha => by simpa using hcover a ha
      rw [hempty]
      exact List.Perm.nil
  | cons k ks ih =>
      obtain ⟨hk, hnodup⟩ := List.nodup_cons.mp hnodup
      have hothers : ∀ a ∈ l.filter fun a => ¬ f a = k, f a ∈ ks := by
        intro a ha
        obtain ⟨ha, hne⟩ := List.mem_filter.mp ha
        exact (List.mem_cons.mp (hcover a ha)).resolve_left (of_decide_eq_true hne)
      have hgroups : ks.flatMap (members f l)
          = ks.flatMap (members f (l.filter fun a => ¬ f a = k)) := by
        refine List.flatMap_congr fun k' hk' => (members_filter_ne ?_).symm
        rintro rfl
        exact hk hk'
      -- the first group, and the groups of the others
      rw [List.flatMap_cons, hgroups]
      refine ((ih hnodup hothers).append_left _).trans ?_
      have hsplit := List.filter_append_perm (fun a => decide (f a = k)) l
      simpa only [members, decide_not] using hsplit

/-- What is summed up over the groups is summed up over the list. -/
theorem sum_members {M : Type*} [AddCommMonoid M] {ks : List κ} (hnodup : ks.Nodup)
    (hcover : ∀ a ∈ l, f a ∈ ks) (g : α → M) :
    (ks.map fun k => ((members f l k).map g).sum).sum = (l.map g).sum := by
  have hperm := (flatMap_members_perm hnodup hcover).map g
  rw [← hperm.sum_eq, List.map_flatMap, List.flatMap_def, List.sum_flatten, List.map_map]
  rfl

/-- The groups have as many elements as the list. -/
theorem sum_length_members {ks : List κ} (hnodup : ks.Nodup) (hcover : ∀ a ∈ l, f a ∈ ks) :
    (ks.map fun k => (members f l k).length).sum = l.length := by
  have hperm := flatMap_members_perm hnodup hcover
  rw [← hperm.length_eq, List.length_flatMap]

end Grouping
