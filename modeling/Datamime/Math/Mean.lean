/-
# Means of floating-point values

The mean of a list is its sum over its length. One more value in front leaves the mean as it is
precisely if it is the mean itself, or if the mean is not finite and swallows it. Means keep the
order of the values, unless infinities cancel.
-/

import Datamime.Math.ExtendedRational
import Mathlib.Data.List.Forall2

namespace Datamime.Math.ERat

/-! ## Sums -/

theorem zero_def : (0 : ERat) = num 0 := rfl

@[simp] theorem inf_add_num (s : Bool) (q : ℚ) : inf s + num q = inf s := rfl

@[simp] theorem num_add_inf (q : ℚ) (s : Bool) : num q + inf s = inf s := rfl

theorem inf_add_inf (s t : Bool) : inf s + inf t = if s = t then inf s else nan := rfl

protected theorem add_comm (a b : ERat) : a + b = b + a := by
  cases a with
  | num p => cases b <;> simp [Rat.add_comm]
  | inf s =>
      cases b with
      | num q => rfl
      | inf t => cases s <;> cases t <;> rfl
      | nan => rfl
  | nan => simp

protected theorem add_assoc (a b c : ERat) : a + b + c = a + (b + c) := by
  cases a with
  | num p =>
      cases b with
      | num q => cases c <;> simp [Rat.add_assoc]
      | inf t =>
          cases c with
          | num r => rfl
          | inf u => cases t <;> cases u <;> rfl
          | nan => rfl
      | nan => simp
  | inf s =>
      cases b with
      | num q => cases c <;> rfl
      | inf t =>
          cases c with
          | num r => cases s <;> cases t <;> rfl
          | inf u => cases s <;> cases t <;> cases u <;> rfl
          | nan => simp
      | nan => simp
  | nan => simp

protected theorem zero_add (a : ERat) : 0 + a = a := by
  cases a <;> simp [zero_def]

def sum (values : List ERat) : ERat := values.foldl (· + ·) 0

def mean (values : List ERat) : ERat := sum values / num values.length

theorem sum_cons (value : ERat) (values : List ERat) :
    sum (value :: values) = value + sum values := by
  have moves (a b : ERat) : values.foldl (· + ·) (a + b) = a + values.foldl (· + ·) b := by
    induction values generalizing b with
    | nil => rfl
    | cons next values ih => rw [List.foldl_cons, ERat.add_assoc, ih, List.foldl_cons]
  rw [sum, sum, List.foldl_cons, ERat.add_comm 0, moves]

/-! ## One value more -/

/-- A value in front of others does not change their mean. -/
def KeepsMean (value : ERat) (values : List ERat) : Prop :=
  value = mean values ∨ values ≠ [] ∧
    (mean values = nan ∨ ∃ s q, mean values = inf s ∧ value = num q)

theorem inf_div_num (s : Bool) {q : ℚ} (nonneg : 0 ≤ q) : inf s / num q = inf s := by
  show inf (s != decide (q < 0)) = inf s
  rw [decide_eq_false (not_lt.mpr nonneg), Bool.bne_false]

theorem add_div_succ_eq_iff {value total length : ℚ} (positive : 0 < length) :
    (value + total) / (length + 1) = total / length ↔ value = total / length := by
  have nonzero : length ≠ 0 := positive.ne'
  have longer : length + 1 ≠ 0 := by linarith
  rw [div_eq_div_iff longer nonzero, eq_div_iff nonzero]
  constructor <;> intro equal <;> linarith

theorem mean_singleton (value : ERat) : mean [value] = value := by
  cases value with
  | num q => simp [mean, sum, zero_def, num_div_num]
  | inf s => exact inf_div_num s (Nat.cast_nonneg 1)
  | nan => rfl

theorem mean_cons_eq_iff (value : ERat) (values : List ERat) :
    mean (value :: values) = mean values ↔ KeepsMean value values := by
  rw [KeepsMean]
  cases values with
  | nil =>
      have undefined : mean [] = nan := rfl
      simp [undefined, mean_singleton]
  | cons first rest =>
      have positive : (0 : ℚ) < ((first :: rest).length : ℕ) := by
        exact_mod_cast List.length_pos_of_ne_nil (List.cons_ne_nil first rest)
      have isMean : mean (value :: first :: rest) =
          (value + sum (first :: rest)) / num (((first :: rest).length : ℕ) + 1) := by
        rw [mean, sum_cons, List.length_cons, Nat.cast_succ]
      have longer : 0 < (((first :: rest).length : ℕ) : ℚ) + 1 := by linarith
      rw [isMean, mean]
      generalize (((first :: rest).length : ℕ) : ℚ) = length at positive longer
      cases sum (first :: rest) with
      | num total =>
          rw [num_div_num positive.ne']
          cases value with
          | num q =>
              rw [num_add_num, num_div_num longer.ne', num.injEq, add_div_succ_eq_iff positive]
              simp
          | inf s => simp [inf_div_num s longer.le]
          | nan => simp
      | inf s =>
          rw [inf_div_num s positive.le]
          cases value with
          | num q => simp [inf_div_num s longer.le]
          | inf t =>
              rw [inf_add_inf]
              split
              · simp [inf_div_num t longer.le]
              · simpa using by assumption
          | nan => simp
      | nan => simp

/-! ## The order of means -/

theorem ne_nan_of_add {a b : ERat} (defined : a + b ≠ nan) : a ≠ nan ∧ b ≠ nan := by
  constructor
  · rintro rfl
    exact defined (nan_add b)
  · rintro rfl
    exact defined (add_nan a)

theorem add_atMost {a b c d : ERat} (first : AtMost a c) (second : AtMost b d)
    (defined : a + b ≠ nan) (alsoDefined : c + d ≠ nan) : AtMost (a + b) (c + d) := by
  rw [AtMost] at first second ⊢
  cases a <;> cases b <;> cases c <;> cases d <;> simp_all [le, inf_add_inf]
  exact add_le_add first second

theorem div_num_atMost {a b : ERat} (related : AtMost a b) {q : ℚ} (positive : 0 < q) :
    AtMost (a / num q) (b / num q) := by
  rw [AtMost] at related ⊢
  cases a with
  | num x =>
      rw [num_div_num positive.ne']
      cases b with
      | num y =>
          have less : x ≤ y := of_decide_eq_true related
          rw [num_div_num positive.ne']
          exact decide_eq_true (div_le_div_of_nonneg_right less positive.le)
      | inf t =>
          rw [inf_div_num t positive.le]
          exact related
      | nan => cases related
  | inf s =>
      rw [inf_div_num s positive.le]
      cases b with
      | num y =>
          rw [num_div_num positive.ne']
          exact related
      | inf t =>
          rw [inf_div_num t positive.le]
          exact related
      | nan => cases related
  | nan => cases related

theorem sum_atMost {lower upper : List ERat} (related : List.Forall₂ AtMost lower upper)
    (defined : sum lower ≠ nan) (alsoDefined : sum upper ≠ nan) :
    AtMost (sum lower) (sum upper) := by
  induction related with
  | nil => exact atMost_self_iff.mpr defined
  | cons first _ ih =>
      rw [sum_cons] at defined alsoDefined
      rw [sum_cons, sum_cons]
      exact add_atMost first (ih (ne_nan_of_add defined).2 (ne_nan_of_add alsoDefined).2) defined
        alsoDefined

theorem sum_ne_nan_of_mean {values : List ERat} (defined : mean values ≠ nan) :
    sum values ≠ nan := by
  intro undefined
  rw [mean, undefined, nan_div] at defined
  exact defined rfl

/-- Larger values have a larger mean, if both means are defined. -/
theorem mean_atMost {lower upper : List ERat} (related : List.Forall₂ AtMost lower upper)
    (defined : mean lower ≠ nan) (alsoDefined : mean upper ≠ nan) :
    AtMost (mean lower) (mean upper) := by
  have sums := sum_atMost related (sum_ne_nan_of_mean defined) (sum_ne_nan_of_mean alsoDefined)
  cases related with
  | nil => exact absurd rfl defined
  | cons first rest =>
      rw [mean, mean, List.length_cons, List.length_cons, rest.length_eq]
      exact div_num_atMost sums (by exact_mod_cast Nat.succ_pos _)
end Datamime.Math.ERat
