import Mathlib

/-!
# Runs of a guarded step function

A system is a step function `step : σ → α → Option σ`: the state after the
action, or `none` when the action is not enabled.  A run is a list of actions
taken one after another.

* `run` — the state a list of actions leads to, when every one is enabled.
* `Along C` — every step taken along a run satisfies `C`, a condition on the
  state before the step and the action.
* `Always P` — `P` holds in the first state of a run and in every state it
  reaches.

The rules the developments above use are `run_invariant` (a property each step
preserves is preserved by a run; `run_invariant_history`, of the state together with the
actions behind it) and `always_of_invariant` (and holds all along it),
`run_invariant_of_along` (the same for steps that satisfy a condition),
`run_le_credits` (no run adds more than its steps are credited with;
`run_add_credits`, of what it brings nothing is lost but by steps that are said to lose it),
`exists_run_filter` (a system follows what it can see of the runs of another one),
`always_iff_along` (when a step keeps the property *exactly* if it satisfies the
condition, a run keeps it exactly if all its steps do) and `run_iff_along` (when no
step mends the property, the last state of the run is enough to tell; among the states
of an invariant, `run_iff_along_of_invariant`).
-/

namespace Runs

universe u v

variable {σ : Type u} {α : Type v}

/-- The state a list of actions leads to; `none` when some action on the way is
not enabled. -/
def run (step : σ → α → Option σ) : σ → List α → Option σ
  | s, [] => some s
  | s, a :: as => (step s a).bind fun s' => run step s' as

/-- Every step taken along the run satisfies `C`. -/
def Along (step : σ → α → Option σ) (C : σ → α → Prop) : σ → List α → Prop
  | _, [] => True
  | s, a :: as => C s a ∧ ∀ s', step s a = some s' → Along step C s' as

/-- `P` holds in the first state of the run and in every state it reaches. -/
def Always (step : σ → α → Option σ) (P : σ → Prop) : σ → List α → Prop
  | s, [] => P s
  | s, a :: as => P s ∧ ∀ s', step s a = some s' → Always step P s' as

variable {step : σ → α → Option σ} {C : σ → α → Prop} {P I : σ → Prop}

@[simp] theorem run_nil (s : σ) : run step s [] = some s := rfl

theorem run_cons (s : σ) (a : α) (as : List α) :
    run step s (a :: as) = (step s a).bind fun s' => run step s' as := rfl

theorem run_cons_eq_some {s t : σ} {a : α} {as : List α} :
    run step s (a :: as) = some t ↔
      ∃ s', step s a = some s' ∧ run step s' as = some t := by
  rw [run_cons, Option.bind_eq_some_iff]

/-- A run of two stretches passes through the state between them. -/
theorem run_append_eq_some {s t : σ} {as bs : List α} :
    run step s (as ++ bs) = some t ↔
      ∃ m, run step s as = some m ∧ run step m bs = some t := by
  induction as generalizing s with
  | nil => simp
  | cons a as ih =>
      rw [List.cons_append, run_cons_eq_some]
      constructor
      · rintro ⟨s', hstep, hrest⟩
        obtain ⟨m, hm, ht⟩ := ih.mp hrest
        exact ⟨m, run_cons_eq_some.mpr ⟨s', hstep, hm⟩, ht⟩
      · rintro ⟨m, hm, ht⟩
        obtain ⟨s', hstep, hrest⟩ := run_cons_eq_some.mp hm
        exact ⟨s', hstep, ih.mpr ⟨m, hrest, ht⟩⟩

/-- **The invariant rule.**  What every step preserves, a run preserves. -/
theorem run_invariant
    (hstep : ∀ s a s', I s → step s a = some s' → I s')
    {s t : σ} {as : List α} (hs : I s) (hrun : run step s as = some t) : I t := by
  induction as generalizing s with
  | nil =>
      cases hrun
      exact hs
  | cons a as ih =>
      obtain ⟨s', ha, hrest⟩ := run_cons_eq_some.mp hrun
      exact ih (hstep s a s' hs ha) hrest

/-- **The invariant rule with a history.**  What the first state satisfies with nothing
behind it, and every step preserves with one more action behind it, a run ends with. -/
theorem run_invariant_history {H : List α → σ → Prop} {s t : σ} {as : List α}
    (hstart : H [] s)
    (hstep : ∀ as m a m', run step s as = some m → H as m → step m a = some m' →
      H (as ++ [a]) m')
    (hrun : run step s as = some t) : H as t := by
  induction as using List.reverseRecOn generalizing t with
  | nil =>
      cases hrun
      exact hstart
  | append_singleton as a ih =>
      obtain ⟨m, hm, hlast⟩ := run_append_eq_some.mp hrun
      obtain ⟨t', ha, ht⟩ := run_cons_eq_some.mp hlast
      cases ht
      exact hstep as m a t hm (ih hm) ha

section Reaches

variable {p : α → Prop}

/-- A run of actions that satisfy `p` leads from one state to the other. -/
def ReachesBy (step : σ → α → Option σ) (p : α → Prop) (s t : σ) : Prop :=
  ∃ as, (∀ a ∈ as, p a) ∧ run step s as = some t

@[refl] theorem ReachesBy.refl (s : σ) : ReachesBy step p s s := ⟨[], nofun, rfl⟩

@[trans] theorem ReachesBy.trans {s m t : σ} (h : ReachesBy step p s m)
    (h' : ReachesBy step p m t) : ReachesBy step p s t := by
  obtain ⟨as, has, hrun⟩ := h
  obtain ⟨bs, hbs, hrun'⟩ := h'
  refine ⟨as ++ bs, fun a ha => ?_, run_append_eq_some.mpr ⟨m, hrun, hrun'⟩⟩
  exact (List.mem_append.mp ha).elim (has a) (hbs a)

theorem ReachesBy.single {s t : σ} {a : α} (ha : p a) (h : step s a = some t) :
    ReachesBy step p s t :=
  ⟨[a], by simpa using ha, run_cons_eq_some.mpr ⟨t, h, rfl⟩⟩

end Reaches

section Credits

universe m

variable {M : Type m} [AddCommMonoid M]

/-- What the actions of a run are credited with. -/
def credits (step : σ → α → Option σ) (credit : σ → α → M) : σ → List α → M
  | _, [] => 0
  | s, a :: as => credit s a + (step s a).elim 0 fun s' => credits step credit s' as

theorem credits_cons_of_some {credit : σ → α → M} {s s' : σ} {a : α} (as : List α)
    (h : step s a = some s') :
    credits step credit s (a :: as) = credit s a + credits step credit s' as := by
  rw [credits, h, Option.elim_some]

/-- **The rule of credits.**  If no step adds more than it is credited with, a run does not
either. -/
theorem run_le_credits [PartialOrder M] [IsOrderedAddMonoid M] (Φ : σ → M)
    {credit : σ → α → M} (hstep : ∀ s a s', step s a = some s' → Φ s' ≤ Φ s + credit s a)
    {s t : σ} {as : List α} (hrun : run step s as = some t) :
    Φ t ≤ Φ s + credits step credit s as := by
  induction as generalizing s with
  | nil =>
      cases hrun
      exact (add_zero _).ge
  | cons a as ih =>
      obtain ⟨s', ha, hrest⟩ := run_cons_eq_some.mp hrun
      rw [credits_cons_of_some as ha, ← add_assoc]
      exact (ih hrest).trans (add_le_add_left (hstep s a s' ha) _)

/-- **The rule of balances.**  If every step adds what its action brings, up to what the
step is said to lose, a run does. -/
theorem run_add_credits (Φ : σ → M) {gained : α → M} {lost : σ → α → M}
    (hstep : ∀ s a s', step s a = some s' → Φ s' + lost s a = Φ s + gained a)
    {s t : σ} {as : List α} (hrun : run step s as = some t) :
    Φ t + credits step lost s as = Φ s + (as.map gained).sum := by
  induction as generalizing s with
  | nil =>
      cases hrun
      rfl
  | cons a as ih =>
      obtain ⟨s', ha, hrest⟩ := run_cons_eq_some.mp hrun
      rw [credits_cons_of_some as ha, List.map_cons, List.sum_cons]
      calc Φ t + (lost s a + credits step lost s' as)
          = lost s a + (Φ t + credits step lost s' as) := add_left_comm _ _ _
        _ = lost s a + (Φ s' + (as.map gained).sum) := by rw [ih hrest]
        _ = Φ s' + lost s a + (as.map gained).sum := by abel
        _ = Φ s + (gained a + (as.map gained).sum) := by rw [hstep s a s' ha, add_assoc]

end Credits

section Simulation

universe w x

variable {τ : Type w} {β : Type x} {step' : τ → β → Option τ} {R : σ → τ → Prop}

/-- **The unwinding rule.**  If a system can follow each visible step of another one, and
the other steps make no difference to it, it can follow each run by its visible steps. -/
theorem exists_run_filter {step' : τ → α → Option τ} {visible : α → Bool}
    (hvisible : ∀ s r a s', R s r → visible a = true → step s a = some s' →
      ∃ r', step' r a = some r' ∧ R s' r')
    (hhidden : ∀ s r a s', R s r → visible a = false → step s a = some s' → R s' r)
    {s t : σ} {r : τ} {as : List α} (hR : R s r) (hrun : run step s as = some t) :
    ∃ r', run step' r (as.filter visible) = some r' ∧ R t r' := by
  induction as generalizing s r with
  | nil =>
      cases hrun
      exact ⟨r, rfl, hR⟩
  | cons a as ih =>
      obtain ⟨s', ha, hrest⟩ := run_cons_eq_some.mp hrun
      cases hsees : visible a with
      | true =>
          obtain ⟨r', hr', hR'⟩ := hvisible s r a s' hR hsees ha
          obtain ⟨r'', hr'', hR''⟩ := ih hR' hrest
          rw [List.filter_cons_of_pos hsees]
          exact ⟨r'', run_cons_eq_some.mpr ⟨r', hr', hr''⟩, hR''⟩
      | false =>
          rw [List.filter_cons_of_neg (by simp [hsees])]
          exact ih (hhidden s r a s' hR hsees ha) hrest

end Simulation

/-- What holds along a run, weakened. -/
theorem Always.mono {P Q : σ → Prop} (h : ∀ s, P s → Q s) {s : σ} {as : List α}
    (halways : Always step P s as) : Always step Q s as := by
  induction as generalizing s with
  | nil => exact h s halways
  | cons a as ih => exact ⟨h s halways.1, fun s' ha => ih (halways.2 s' ha)⟩

/-- What every step preserves holds all along a run. -/
theorem always_of_invariant
    (hstep : ∀ s a s', I s → step s a = some s' → I s')
    {s : σ} (hs : I s) (as : List α) : Always step I s as := by
  induction as generalizing s with
  | nil => exact hs
  | cons a as ih => exact ⟨hs, fun s' ha => ih (hstep s a s' hs ha)⟩

/-- What holds along two stretches holds along the run they make. -/
theorem Always.append {s m : σ} {as bs : List α} (has : Always step P s as)
    (hrun : run step s as = some m) (hbs : Always step P m bs) :
    Always step P s (as ++ bs) := by
  induction as generalizing s with
  | nil =>
      cases hrun
      exact hbs
  | cons a as ih =>
      obtain ⟨s', ha, hrest⟩ := run_cons_eq_some.mp hrun
      refine ⟨has.1, fun t ht => ?_⟩
      obtain rfl := Option.some.inj (ha.symm.trans ht)
      exact ih (has.2 s' ha) hrest

/-- A step between two states with the property. -/
theorem always_singleton {s s' : σ} {a : α} (hs : P s) (hstep : step s a = some s')
    (hs' : P s') : Always step P s [a] := by
  refine ⟨hs, fun t ht => ?_⟩
  obtain rfl := Option.some.inj (hstep.symm.trans ht)
  exact hs'

@[simp] theorem along_nil (s : σ) : Along step C s [] := trivial

/-- What every step satisfies, the steps of a run satisfy. -/
theorem along_of_forall (hC : ∀ s a, C s a) (s : σ) (as : List α) : Along step C s as := by
  induction as generalizing s with
  | nil => exact trivial
  | cons a as ih => exact ⟨hC s a, fun s' _ => ih s'⟩

theorem along_cons {s : σ} {a : α} {as : List α} :
    Along step C s (a :: as) ↔
      C s a ∧ ∀ s', step s a = some s' → Along step C s' as := Iff.rfl

theorem along_cons_of_some {s s' : σ} {a : α} {as : List α} (h : step s a = some s') :
    Along step C s (a :: as) ↔ C s a ∧ Along step C s' as := by
  rw [along_cons]
  simp [h]

theorem along_cons_of_none {s : σ} {a : α} {as : List α} (h : step s a = none) :
    Along step C s (a :: as) ↔ C s a := by
  rw [along_cons]
  simp [h]

/-- Two conditions hold along a run if both do. -/
theorem along_and {D : σ → α → Prop} {s : σ} {as : List α} :
    Along step (fun s a => C s a ∧ D s a) s as ↔ Along step C s as ∧ Along step D s as := by
  induction as generalizing s with
  | nil => simp
  | cons a as ih =>
      simp only [along_cons, ih]
      constructor
      · rintro ⟨⟨hC, hD⟩, hrest⟩
        exact ⟨⟨hC, fun s' ha => (hrest s' ha).1⟩, hD, fun s' ha => (hrest s' ha).2⟩
      · rintro ⟨⟨hC, hrest⟩, hD, hrest'⟩
        exact ⟨⟨hC, hD⟩, fun s' ha => ⟨hrest s' ha, hrest' s' ha⟩⟩

/-- Two conditions that agree in the states of a property hold along the same runs that
keep it. -/
theorem along_congr_of_always {D : σ → α → Prop} (hiff : ∀ s a, P s → (C s a ↔ D s a))
    {s : σ} {as : List α} (halways : Always step P s as) :
    Along step C s as ↔ Along step D s as := by
  induction as generalizing s with
  | nil => simp
  | cons a as ih =>
      rw [along_cons, along_cons]
      refine and_congr (hiff s a halways.1) (forall_congr' fun s' => ?_)
      exact forall_congr' fun ha => ih (halways.2 s' ha)

/-- Conditions on steps can be tested along a run. -/
instance decidableAlong [∀ s a, Decidable (C s a)] :
    (s : σ) → (as : List α) → Decidable (Along step C s as)
  | _, [] => isTrue trivial
  | s, a :: as =>
      match h : step s a with
      | none => decidable_of_iff _ (along_cons_of_none h).symm
      | some s' =>
          have := decidableAlong s' as
          decidable_of_iff _ (along_cons_of_some h).symm

/-- A condition that holds along a run holds along its first stretch, and along
its second stretch from the state between the two. -/
theorem along_append {s m : σ} {as bs : List α}
    (hrun : run step s as = some m) :
    Along step C s (as ++ bs) ↔ Along step C s as ∧ Along step C m bs := by
  induction as generalizing s with
  | nil =>
      cases hrun
      simp
  | cons a as ih =>
      obtain ⟨s', ha, hrest⟩ := run_cons_eq_some.mp hrun
      rw [List.cons_append, along_cons_of_some ha, along_cons_of_some ha, ih hrest,
        and_assoc]

/-- **The conditional invariant rule.**  What every step satisfying `C`
preserves, a run all of whose steps satisfy `C` preserves. -/
theorem run_invariant_of_along
    (hstep : ∀ s a s', I s → C s a → step s a = some s' → I s')
    {s t : σ} {as : List α} (hs : I s) (halong : Along step C s as)
    (hrun : run step s as = some t) : I t := by
  induction as generalizing s with
  | nil =>
      cases hrun
      exact hs
  | cons a as ih =>
      obtain ⟨s', ha, hrest⟩ := run_cons_eq_some.mp hrun
      obtain ⟨hC, hnext⟩ := halong
      exact ih (hstep s a s' hs hC ha) (hnext s' ha) hrest

/-- Two properties that agree in the states that satisfy an invariant agree along a
run. -/
theorem always_congr {J : σ → Prop} (hJ : ∀ s a s', J s → step s a = some s' → J s')
    (hiff : ∀ s, J s → (P s ↔ I s)) {s : σ} (hs : J s) (as : List α) :
    Always step P s as ↔ Always step I s as := by
  induction as generalizing s with
  | nil => exact hiff s hs
  | cons a as ih =>
      refine and_congr (hiff s hs) (forall_congr' fun s' => forall_congr' fun ha => ?_)
      exact ih (hJ s a s' hs ha)

/-- **The exact rule.**  When a step from a good state leads to a good state if and
only if it satisfies `C`, a run stays good if and only if it starts good and all its
steps satisfy `C`.  Of an action that is not enabled, `C` asks nothing. -/
theorem always_iff_along {s : σ} {as : List α}
    (hstep : ∀ s, ∀ a ∈ as, ∀ s', I s → step s a = some s' → (I s' ↔ C s a))
    (hdisabled : ∀ s, ∀ a ∈ as, step s a = none → C s a) :
    Always step I s as ↔ I s ∧ Along step C s as := by
  induction as generalizing s with
  | nil => simp [Always]
  | cons a as ih =>
      have hmem : a ∈ a :: as := List.mem_cons_self
      cases ha : step s a with
      | none => simp [Always, along_cons_of_none ha, ha, hdisabled s a hmem ha]
      | some s' =>
          have hnext : (∀ s'', step s a = some s'' → Always step I s'' as) ↔
              Always step I s' as := by
            simp [ha]
          have hrest := ih (s := s') (fun s b hb => hstep s b (List.mem_cons_of_mem a hb))
            fun s b hb => hdisabled s b (List.mem_cons_of_mem a hb)
          rw [Always, hnext, along_cons_of_some ha, hrest]
          constructor
          · rintro ⟨hs, hs', hrest⟩
            exact ⟨hs, (hstep s a hmem s' hs ha).mp hs', hrest⟩
          · rintro ⟨hs, hC, hrest⟩
            exact ⟨hs, (hstep s a hmem s' hs ha).mpr hC, hrest⟩

/-- **The exact rule for the last state.**  Among the states that satisfy an invariant,
when a step from a good state leads to a good state if and only if it satisfies `C`, and
none leads from a bad state to a good one, a run that starts good ends good if and only
if all its steps satisfy `C`. -/
theorem run_iff_along_of_invariant {J : σ → Prop} {s t : σ} {as : List α}
    (hJ : ∀ s, ∀ a ∈ as, ∀ s', J s → step s a = some s' → J s')
    (hstep : ∀ s, ∀ a ∈ as, ∀ s', J s → I s → step s a = some s' → (I s' ↔ C s a))
    (hmend : ∀ s, ∀ a ∈ as, ∀ s', J s → step s a = some s' → I s' → I s)
    (hJs : J s) (hs : I s) (hrun : run step s as = some t) :
    J t ∧ (I t ↔ Along step C s as) := by
  induction as using List.reverseRecOn generalizing t with
  | nil =>
      cases hrun
      exact ⟨hJs, by simpa using hs⟩
  | append_singleton as a ih =>
      obtain ⟨m, hm, hlast⟩ := run_append_eq_some.mp hrun
      obtain ⟨t', ha, ht⟩ := run_cons_eq_some.mp hlast
      cases ht
      have hmem : a ∈ as ++ [a] := List.mem_append_right _ (List.mem_singleton_self a)
      obtain ⟨hJm, hih⟩ := ih (fun s b hb => hJ s b (List.mem_append_left _ hb))
        (fun s b hb => hstep s b (List.mem_append_left _ hb))
        (fun s b hb => hmend s b (List.mem_append_left _ hb)) hm
      refine ⟨hJ m a hmem t hJm ha, ?_⟩
      rw [along_append hm, along_cons_of_some ha, ← hih]
      constructor
      · intro hgood
        have hbefore := hmend m a hmem t hJm ha hgood
        exact ⟨hbefore, (hstep m a hmem t hJm hbefore ha).mp hgood, trivial⟩
      · rintro ⟨hbefore, hC, -⟩
        exact (hstep m a hmem t hJm hbefore ha).mpr hC

/-- The rule without an invariant. -/
theorem run_iff_along {s t : σ} {as : List α}
    (hstep : ∀ s, ∀ a ∈ as, ∀ s', I s → step s a = some s' → (I s' ↔ C s a))
    (hmend : ∀ s, ∀ a ∈ as, ∀ s', step s a = some s' → I s' → I s)
    (hs : I s) (hrun : run step s as = some t) : I t ↔ Along step C s as :=
  (run_iff_along_of_invariant (J := fun _ => True) (fun _ _ _ _ _ _ => trivial)
    (fun s a ha s' _ => hstep s a ha s') (fun s a ha s' _ => hmend s a ha s') trivial hs
    hrun).2

end Runs
