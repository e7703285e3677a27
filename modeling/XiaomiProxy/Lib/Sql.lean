import Mathlib

/-!
# Statements with numbered parameters

The part of SQL that queries of one table are built of, over rows of any type.

* `Statement` — conditions joined by `AND`, each on a column and the parameter of a number,
  and the parameters that are bound to the numbers.  A statement grows at the end: by a
  condition that takes the next number (`Statement.and`), or by a parameter only
  (`Statement.push`).
* `Statement.selects` — the rows a `WHERE` keeps.  A comparison with `NULL` is null, and only
  rows for which all conditions are true are kept.
* `sum` — `SUM`, which leaves out nulls and fails when it overflows on the way.

What is added to a statement leaves the conditions it has as they are
(`Statement.selects_and`, `Statement.selects_push`), as every one refers to a parameter that
is already there.
-/

namespace Sql

universe u

inductive Value where
  | null
  | integer (n : Int64)
  | text (s : String)
  deriving DecidableEq, Repr

namespace Value

/-- A text column that may be null. -/
def ofText : Option String → Value
  | none => null
  | some s => text s

@[simp] theorem ofText_none : ofText none = null := rfl

@[simp] theorem ofText_some (s : String) : ofText (some s) = text s := rfl

/-- The order of values: integers come before texts. -/
def le : Value → Value → Bool
  | integer a, integer b => decide (a ≤ b)
  | integer _, text _ => true
  | text s, text t => decide (s ≤ t)
  | _, _ => false

def toInteger : Value → Option Int64
  | integer n => some n
  | _ => none

end Value

inductive Comparison where
  | eq
  | le
  | ge
  deriving DecidableEq, Repr

/-- The truth of a comparison, `none` being null. -/
def Comparison.truth : Comparison → Value → Value → Option Bool
  | _, .null, _ => none
  | _, _, .null => none
  | .eq, v, w => some (decide (v = w))
  | .le, v, w => some (v.le w)
  | .ge, v, w => some (w.le v)

@[simp] theorem truth_null (c : Comparison) (w : Value) : c.truth .null w = none := by
  cases c <;> rfl

@[simp] theorem truth_le_text (s t : String) :
    Comparison.le.truth (.text s) (.text t) = some (decide (s ≤ t)) := rfl

@[simp] theorem truth_ge_text (s t : String) :
    Comparison.ge.truth (.text s) (.text t) = some (decide (t ≤ s)) := rfl

/-- The value that is bound to `?n`, null if there is none. -/
def bound (params : List Value) : ℕ → Value
  | 0 => .null
  | n + 1 => params.getD n .null

theorem bound_append {params : List Value} {n : ℕ} (hpos : 1 ≤ n) (hle : n ≤ params.length)
    (more : List Value) : bound (params ++ more) n = bound params n := by
  obtain ⟨n, rfl⟩ := Nat.exists_eq_add_of_le' hpos
  exact List.getD_append _ _ _ _ hle

theorem bound_length_succ (params : List Value) (v : Value) (more : List Value) :
    bound (params ++ v :: more) (params.length + 1) = v := by
  rw [bound, List.getD_append_right _ _ _ _ le_rfl, Nat.sub_self]
  rfl

/-- A column, compared with `?param`. -/
structure Condition (ρ : Type u) where
  column : ρ → Value
  comparison : Comparison
  param : ℕ

/-- Whether a condition is true of a row. -/
def Condition.holds {ρ : Type u} (params : List Value) (c : Condition ρ) (row : ρ) : Bool :=
  c.comparison.truth (c.column row) (bound params c.param) == some true

/-- Conditions, and the parameters they refer to by number. -/
structure Statement (ρ : Type u) where
  conditions : List (Condition ρ)
  params : List Value
  numbered : ∀ c ∈ conditions, 1 ≤ c.param ∧ c.param ≤ params.length

namespace Statement

variable {ρ : Type u}

/-- Push a parameter. -/
def push (q : Statement ρ) (v : Value) : Statement ρ where
  conditions := q.conditions
  params := q.params ++ [v]
  numbered c hc := by
    obtain ⟨hpos, hle⟩ := q.numbered c hc
    refine ⟨hpos, hle.trans ?_⟩
    rw [List.length_append]
    exact Nat.le_add_right _ _

/-- Add a condition on the next parameter, and push that. -/
def and (q : Statement ρ) (column : ρ → Value) (comparison : Comparison) (v : Value) :
    Statement ρ where
  conditions := q.conditions ++ [{ column, comparison, param := q.params.length + 1 }]
  params := q.params ++ [v]
  numbered c hc := by
    rcases List.mem_append.mp hc with hc | hc
    · exact (q.push v).numbered c hc
    · obtain rfl := List.mem_singleton.mp hc
      rw [List.length_append]
      exact ⟨Nat.succ_pos _, le_rfl⟩

/-- Add a filter that is there, as an equality with a text. -/
def filterBy (q : Statement ρ) (column : ρ → Value) : Option String → Statement ρ
  | none => q
  | some s => q.and column .eq (.text s)

/-- The `WHERE` of a statement. -/
def selects (q : Statement ρ) (row : ρ) : Bool :=
  q.conditions.all fun c => c.holds q.params row

/-- Parameters that come later are none of the conditions' business. -/
theorem all_holds_append (q : Statement ρ) (more : List Value) (row : ρ) :
    (q.conditions.all fun c => c.holds (q.params ++ more) row) = q.selects row := by
  rw [selects, Bool.eq_iff_iff, List.all_eq_true, List.all_eq_true]
  refine forall₂_congr fun c hc => ?_
  obtain ⟨hpos, hle⟩ := q.numbered c hc
  rw [Condition.holds, Condition.holds, bound_append hpos hle]

@[simp] theorem selects_push (q : Statement ρ) (v : Value) (row : ρ) :
    (q.push v).selects row = q.selects row :=
  q.all_holds_append [v] row

theorem selects_and (q : Statement ρ) (column : ρ → Value) (comparison : Comparison)
    (v : Value) (row : ρ) :
    (q.and column comparison v).selects row
      = (q.selects row && comparison.truth (column row) v == some true) := by
  rw [selects, and, List.all_append, all_holds_append, List.all_cons, List.all_nil,
    Bool.and_true, Condition.holds, bound_length_succ]

theorem selects_filterBy (q : Statement ρ) (column : ρ → Value) (filter : Option String)
    (row : ρ) :
    (q.filterBy column filter).selects row
      = (q.selects row && match filter with
        | some s => decide (column row = .text s)
        | none => true) := by
  cases filter with
  | none => exact (Bool.and_true _).symm
  | some s =>
      rw [filterBy, selects_and]
      congr 1
      cases column row <;> simp [Comparison.truth]

end Statement

/-! ## Sums -/

/-- An integer that fits. -/
def InRange (z : ℤ) : Prop := Int64.minValue.toInt ≤ z ∧ z ≤ Int64.maxValue.toInt

instance (z : ℤ) : Decidable (InRange z) := inferInstanceAs (Decidable (_ ∧ _))

/-- An addition, unless it overflows. -/
def addInt (a b : Int64) : Option Int64 :=
  if InRange (a.toInt + b.toInt) then some (Int64.ofInt (a.toInt + b.toInt)) else none

/-- Add up the values that are not null. -/
def sumFrom : Int64 → List (Option Int64) → Option Int64
  | acc, [] => some acc
  | acc, none :: values => sumFrom acc values
  | acc, some v :: values => (addInt acc v).bind fun acc => sumFrom acc values

/-- `SUM`: null if all values are. -/
def sum (values : List (Option Int64)) : Except String (Option Int64) :=
  match sumFrom 0 values with
  | none => .error "integer overflow"
  | some total => .ok (if values.all Option.isNone then none else some total)

/-- `COALESCE` of two values, the second of which is not null. -/
def coalesce (v : Option Int64) (w : Int64) : Int64 := v.getD w

/-- What a value adds to a sum. -/
def amount (v : Option Int64) : ℤ := (v.map Int64.toInt).getD 0

/-- No sum on the way overflows. -/
def Fits (values : List (Option Int64)) : Prop :=
  ∀ n, InRange ((values.take n).map amount).sum

theorem inRange_toInt (a : Int64) : InRange a.toInt :=
  ⟨a.minValue_le_toInt, a.toInt_le⟩

theorem addInt_eq_some_iff {a b s : Int64} :
    addInt a b = some s ↔ InRange (a.toInt + b.toInt) ∧ s.toInt = a.toInt + b.toInt := by
  rw [addInt, Option.ite_none_right_eq_some, Option.some.injEq]
  refine and_congr_right fun hrange => ?_
  have hexact : (Int64.ofInt (a.toInt + b.toInt)).toInt = a.toInt + b.toInt :=
    Int64.toInt_ofInt_of_le hrange.1 (Int.lt_of_le_sub_one hrange.2)
  rw [← Int64.toInt_inj, hexact, eq_comm]

/-- Sums that start somewhere. -/
theorem sumFrom_eq_some_iff {acc s : Int64} {values : List (Option Int64)} :
    sumFrom acc values = some s ↔
      (∀ n, InRange (acc.toInt + ((values.take n).map amount).sum)) ∧
        s.toInt = acc.toInt + (values.map amount).sum := by
  induction values generalizing acc with
  | nil =>
      have hrange := inRange_toInt acc
      simp [sumFrom, hrange, ← Int64.toInt_inj, eq_comm]
  | cons v values ih =>
      -- the sums on the way are the first one and those of the rest
      have hsplit : (∀ n, InRange (acc.toInt + (((v :: values).take n).map amount).sum)) ↔
          ∀ n, InRange (acc.toInt + amount v + ((values.take n).map amount).sum) := by
        constructor
        · intro h n
          simpa [add_assoc] using h (n + 1)
        · rintro h (_ | n)
          · simpa using inRange_toInt acc
          · simpa [add_assoc] using h n
      rw [hsplit, List.map_cons, List.sum_cons, ← add_assoc]
      cases v with
      | none =>
          have hzero : acc.toInt + amount none = acc.toInt := add_zero _
          rw [sumFrom, ih, hzero]
      | some v =>
          rw [sumFrom, Option.bind_eq_some_iff]
          constructor
          · rintro ⟨acc', hadd, hrest⟩
            obtain ⟨-, hacc'⟩ := addInt_eq_some_iff.mp hadd
            rw [ih, hacc'] at hrest
            exact hrest
          · rintro ⟨hfits, hs⟩
            have hfirst : InRange (acc.toInt + v.toInt) := by simpa [amount] using hfits 0
            obtain ⟨acc', hadd⟩ : ∃ acc', addInt acc v = some acc' := ⟨_, if_pos hfirst⟩
            obtain ⟨-, hacc'⟩ := addInt_eq_some_iff.mp hadd
            refine ⟨acc', hadd, ?_⟩
            rw [ih, hacc']
            exact ⟨hfits, hs⟩

theorem sumFrom_of_all_null {values : List (Option Int64)} (h : values.all Option.isNone)
    (acc : Int64) : sumFrom acc values = some acc := by
  induction values with
  | nil => rfl
  | cons v values ih =>
      rw [List.all_cons, Bool.and_eq_true] at h
      obtain ⟨hv, hvalues⟩ := h
      obtain rfl := Option.isNone_iff_eq_none.mp hv
      exact ih hvalues

/-- **`COALESCE(SUM(..), 0)`** is the sum of what the values add to it, as long as no sum on
the way overflows. -/
theorem coalesce_sum_eq_ok_iff {values : List (Option Int64)} {s : Int64} :
    (sum values).map (coalesce · 0) = .ok s ↔
      Fits values ∧ s.toInt = (values.map amount).sum := by
  have hsum : (sum values).map (coalesce · 0) = .ok s ↔ sumFrom 0 values = some s := by
    unfold sum
    split
    · rename_i hnone
      rw [hnone]
      exact iff_of_false nofun nofun
    · rename_i total htotal
      rw [htotal]
      by_cases hnull : values.all Option.isNone
      · rw [sumFrom_of_all_null hnull] at htotal
        obtain rfl := Option.some.inj htotal
        simp [Except.map, hnull, coalesce]
      · simp [Except.map, hnull, coalesce]
  rw [hsum, sumFrom_eq_some_iff]
  simp only [Int64.toInt_zero, zero_add]
  exact Iff.rfl

theorem fits_nil : Fits [] := by
  intro n
  rw [List.take_nil]
  exact inRange_toInt 0

theorem Fits.exists_sum {values : List (Option Int64)} (h : Fits values) :
    ∃ s, (sum values).map (coalesce · 0) = .ok s := by
  have hrange := h values.length
  rw [List.take_length] at hrange
  exact ⟨_, coalesce_sum_eq_ok_iff.mpr ⟨h,
    Int64.toInt_ofInt_of_le hrange.1 (Int.lt_of_le_sub_one hrange.2)⟩⟩

/-- Few values that are not negative, and not too big, do not overflow. -/
theorem fits_of_le {values : List (Option Int64)} {m : ℕ}
    (hamount : ∀ v ∈ values, 0 ≤ amount v ∧ amount v ≤ m)
    (hfew : (values.length * m : ℕ) ≤ Int64.maxValue.toInt) : Fits values := by
  intro n
  have htaken : ∀ z ∈ (values.take n).map amount, 0 ≤ z ∧ z ≤ m := by
    intro z hz
    obtain ⟨v, hv, rfl⟩ := List.mem_map.mp hz
    exact hamount v (List.mem_of_mem_take hv)
  refine ⟨(by decide : Int64.minValue.toInt ≤ 0).trans
    (List.sum_nonneg fun z hz => (htaken z hz).1), le_trans ?_ hfew⟩
  refine (List.sum_le_card_nsmul _ (m : ℤ) fun z hz => (htaken z hz).2).trans ?_
  rw [nsmul_eq_mul, ← Nat.cast_mul, Nat.cast_le, List.length_map]
  exact Nat.mul_le_mul_right m (List.length_take_le' n values)

end Sql
