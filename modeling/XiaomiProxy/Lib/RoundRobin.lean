import Mathlib

/-!
# Weighted round robin

Entries with weights own consecutive stretches of a cycle: an entry of weight
`w` owns `w` slots, in list order, and the cycle is as long as the weights
together.  A turn is a position on the cycle, and turn after turn the position
moves by one.

`pick` reads the owner of a slot off the list by scanning its prefix sums;
`turns` lists the owners of the slots visited by consecutive turns.  The result
is `count_turns_bounds`: whatever the first position, `n` turns visit an entry
of weight `w` between `⌊n / W⌋ * w` and `⌈n / W⌉ * w` times, where `W` is the
length of the cycle.
-/

namespace RoundRobin

universe u v

variable {α : Type u} {β : Type v}

/-- The length of the cycle. -/
def total (w : α → ℕ) (l : List α) : ℕ := (l.map w).sum

/-- The owner of a slot. -/
def pick (w : α → ℕ) : List α → ℕ → Option α
  | [], _ => none
  | a :: l, i => if i < w a then some a else pick w l (i - w a)

/-- The owners of the slots visited by `n` turns from position `i`. -/
def turns (w : α → ℕ) (l : List α) (i n : ℕ) : List (Option α) :=
  (List.range n).map fun j => pick w l ((i + j) % total w l)

@[simp] theorem total_nil (w : α → ℕ) : total w [] = 0 := rfl

@[simp] theorem total_cons (w : α → ℕ) (a : α) (l : List α) :
    total w (a :: l) = w a + total w l := by
  simp [total]

/-- Every slot of the cycle has an owner. -/
theorem exists_pick_of_lt {w : α → ℕ} {l : List α} {i : ℕ} (h : i < total w l) :
    ∃ a, pick w l i = some a := by
  induction l generalizing i with
  | nil => simp at h
  | cons b l ih =>
      rw [total_cons] at h
      rw [pick]
      split
      · exact ⟨b, rfl⟩
      · exact ih (by omega)

/-- Owners come from the list. -/
theorem mem_of_pick {w : α → ℕ} {l : List α} {i : ℕ} {a : α}
    (h : pick w l i = some a) : a ∈ l := by
  induction l generalizing i with
  | nil => simp [pick] at h
  | cons b l ih =>
      rw [pick] at h
      split at h
      · rw [← Option.some.inj h]
        exact List.mem_cons_self
      · exact List.mem_cons_of_mem _ (ih h)

/-- An entry without weight owns no slot. -/
theorem weight_pos_of_pick {w : α → ℕ} {l : List α} {i : ℕ} {a : α}
    (h : pick w l i = some a) : 0 < w a := by
  induction l generalizing i with
  | nil => simp [pick] at h
  | cons b l ih =>
      rw [pick] at h
      split at h
      · rw [← Option.some.inj h]
        omega
      · exact ih h

/-- **The owner of a slot is the entry whose interval of prefix sums contains it.** -/
theorem exists_interval_of_pick {w : α → ℕ} {l : List α} {i : ℕ} {a : α}
    (h : pick w l i = some a) :
    ∃ before after, l = before ++ a :: after ∧ total w before ≤ i ∧
      i < total w before + w a := by
  induction l generalizing i with
  | nil => simp [pick] at h
  | cons b l ih =>
      rw [pick] at h
      split at h
      · obtain rfl : b = a := Option.some.inj h
        exact ⟨[], l, rfl, Nat.zero_le i, by rw [total_nil]; omega⟩
      · obtain ⟨before, after, rfl, hlo, hhi⟩ := ih h
        refine ⟨b :: before, after, rfl, ?_, ?_⟩
        · rw [total_cons]
          omega
        · rw [total_cons]
          omega

/-- Renaming the entries renames the owners. -/
theorem pick_map (f : α → β) (w : β → ℕ) (l : List α) (i : ℕ) :
    pick w (l.map f) i = (pick (w ∘ f) l i).map f := by
  induction l generalizing i with
  | nil => rfl
  | cons a l ih =>
      simp only [List.map_cons, pick, Function.comp_apply]
      split
      · rfl
      · exact ih _

theorem total_map (f : α → β) (w : β → ℕ) (l : List α) :
    total w (l.map f) = total (w ∘ f) l := by
  simp [total]

section Count

variable [DecidableEq α]

/-- Over one cycle an entry owns as many slots as it weighs: the prefix sums cut
the cycle into the stretch of the first entry and the cycle of the others. -/
theorem count_pick (w : α → ℕ) {l : List α} (hnodup : l.Nodup) {a : α}
    (ha : a ∈ l) : Nat.count (fun i => pick w l i = some a) (total w l) = w a := by
  induction l with
  | nil => cases ha
  | cons b l ih =>
      obtain ⟨hb, hl⟩ := List.nodup_cons.mp hnodup
      have hhead : Nat.count (fun i => pick w (b :: l) i = some a) (w b)
          = if b = a then w b else 0 := by
        have hpick : ∀ i < w b, (pick w (b :: l) i = some a ↔ b = a) := by
          intro i hi
          simp [pick, hi]
        rw [Nat.count_eq_card_filter_range,
          Finset.filter_congr fun i hi => hpick i (Finset.mem_range.mp hi)]
        split <;> simp_all
      have htail : Nat.count (fun i => pick w (b :: l) (w b + i) = some a)
          (total w l) = Nat.count (fun i => pick w l i = some a) (total w l) := by
        congr 1
        funext i
        simp [pick]
      rw [total_cons, Nat.count_add, hhead, htail]
      rcases List.mem_cons.mp ha with rfl | ha
      · -- the first entry owns its own stretch, and no slot of the others
        have hnone : ∀ i, ¬ pick w l i = some a := fun i h => hb (mem_of_pick h)
        simp [hnone, Nat.count_false]
      · have hne : b ≠ a := fun h => hb (h ▸ ha)
        rw [if_neg hne, ih hl ha, Nat.zero_add]

end Count

section Cycle

variable (p : ℕ → Prop) [DecidablePred p] (W : ℕ)

/-- A full cycle meets a slot property equally often wherever it starts: the
first `i + W` slots are `i` slots and a cycle from `i`, and also a cycle from the
start and `i` slots. -/
theorem count_cycle (i : ℕ) :
    Nat.count (fun j => p ((i + j) % W)) W = Nat.count p W := by
  have hslots : Nat.count (fun j => p (j % W)) W = Nat.count p W := by
    rw [Nat.count_eq_card_filter_range, Nat.count_eq_card_filter_range]
    congr 1
    refine Finset.filter_congr ?_
    intro j hj
    rw [Nat.mod_eq_of_lt (Finset.mem_range.mp hj)]
  have hfront := Nat.count_add (fun j => p (j % W)) i W
  have hback := Nat.count_add (fun j => p (j % W)) W i
  simp only [Nat.add_mod_left] at hback
  rw [Nat.add_comm W i, hslots] at hback
  omega

/-- Whole cycles meet a slot property a whole number of times. -/
theorem count_cycles (i q : ℕ) :
    Nat.count (fun j => p ((i + j) % W)) (W * q) = q * Nat.count p W := by
  induction q with
  | zero => simp
  | succ q ih =>
      have hshift : Nat.count (fun j => p ((i + (W * q + j)) % W)) W
          = Nat.count p W := by
        rw [← count_cycle p W (i + W * q)]
        simp only [Nat.add_assoc]
      rw [Nat.mul_succ, Nat.count_add, ih, hshift, Nat.succ_mul]

/-- A window of `n` turns meets a slot property as often as `⌊n / W⌋` cycles at
least, and as `⌈n / W⌉` cycles at most. -/
theorem count_window_bounds (hW : 0 < W) (i n : ℕ) :
    n / W * Nat.count p W ≤ Nat.count (fun j => p ((i + j) % W)) n ∧
      Nat.count (fun j => p ((i + j) % W)) n ≤ n ⌈/⌉ W * Nat.count p W := by
  constructor
  · rw [← count_cycles p W i]
    exact Nat.count_monotone _ (Nat.mul_div_le n W)
  · rw [← count_cycles p W i]
    exact Nat.count_monotone _ (le_smul_ceilDiv hW)

end Cycle

theorem count_turns [BEq α] [LawfulBEq α] [DecidableEq α] (w : α → ℕ) (l : List α) (i n : ℕ)
    (x : Option α) :
    (turns w l i n).count x
      = Nat.count (fun j => pick w l ((i + j) % total w l) = x) n := by
  induction n with
  | zero => rfl
  | succ n ih =>
      rw [turns] at ih ⊢
      rw [List.range_succ, List.map_append, List.count_append, ih, Nat.count_succ]
      simp only [List.map_cons, List.map_nil, List.count_singleton, beq_iff_eq]

/-- **Proportionality.**  From any position, `n` turns of a cycle of length `W`
visit an entry of weight `w` at least `⌊n / W⌋ * w` and at most `⌈n / W⌉ * w`
times. -/
theorem count_turns_bounds [BEq α] [LawfulBEq α] [DecidableEq α] (w : α → ℕ)
    {l : List α} (hnodup : l.Nodup) (hW : 0 < total w l) {a : α} (ha : a ∈ l) (i n : ℕ) :
    n / total w l * w a ≤ (turns w l i n).count (some a) ∧
      (turns w l i n).count (some a) ≤ n ⌈/⌉ total w l * w a := by
  rw [count_turns, ← count_pick w hnodup ha]
  exact count_window_bounds (fun s => pick w l s = some a) (total w l) hW i n

/-- A window as long as the cycle visits every entry exactly as often as it
weighs. -/
theorem count_turns_cycle [BEq α] [LawfulBEq α] [DecidableEq α] (w : α → ℕ)
    {l : List α} (hnodup : l.Nodup) {a : α} (ha : a ∈ l) (i : ℕ) :
    (turns w l i (total w l)).count (some a) = w a := by
  rw [count_turns, count_cycle (fun s => pick w l s = some a), count_pick w hnodup ha]

/-- A run of turns is a first stretch of them and the turns after it. -/
theorem turns_add (w : α → ℕ) (l : List α) (i m n : ℕ) :
    turns w l i (m + n) = turns w l i m ++ turns w l (i + m) n := by
  rw [turns, List.range_add, List.map_append, List.map_map, turns, turns]
  congr 1
  refine List.map_congr_left ?_
  intro j _
  rw [Function.comp_apply, Nat.add_assoc]

/-- Every turn of a cycle that is not empty visits some entry. -/
theorem exists_of_mem_turns {w : α → ℕ} {l : List α} (hW : 0 < total w l)
    {i n : ℕ} {x : Option α} (hx : x ∈ turns w l i n) :
    ∃ a ∈ l, 0 < w a ∧ x = some a := by
  obtain ⟨j, -, rfl⟩ := List.mem_map.mp hx
  obtain ⟨a, ha⟩ := exists_pick_of_lt (Nat.mod_lt (i + j) hW)
  exact ⟨a, mem_of_pick ha, weight_pos_of_pick ha, ha⟩

/-- The turns from `i` are the one at `i` and those after it. -/
theorem turns_succ (w : α → ℕ) (l : List α) (i n : ℕ) :
    turns w l i (n + 1)
      = pick w l (i % total w l) :: turns w l ((i + 1) % total w l) n := by
  rw [turns, List.range_succ_eq_map, List.map_cons, List.map_map, turns]
  congr 1
  refine List.map_congr_left ?_
  intro j _
  simp only [Function.comp_apply, Nat.mod_add_mod]
  congr 2
  omega

end RoundRobin
