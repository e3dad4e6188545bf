/-
# Double-precision arithmetic on natural numbers

A double has a significand of 53 bits, and an operation returns the double next to its exact
result, the one with an even significand if two are equally near. This module treats natural
numbers and the integer part of a quotient. The rounding can lift a quotient to the next integer,
but never from below one to one: whether a quotient reaches one can be decided by comparing its
operands.
-/

import Mathlib.Data.Nat.Log
import Mathlib.Tactic

namespace Datamime.Math.Binary64

/-! ## Rounding -/

/-- The integer next to a quotient; of two next ones, the even one. -/
def roundDiv (a b : ℕ) : ℕ :=
  let low := a / b
  let rest := 2 * (a % b)
  if rest < b then low else if b < rest then low + 1 else if low % 2 = 0 then low else low + 1

/-- The distance of neighbouring doubles around a number. Below 2 ^ 53 all integers are doubles. -/
def unit (n : ℕ) : ℕ := 2 ^ (Nat.log2 n - 52)

/-- The double next to a number. -/
def round (n : ℕ) : ℕ := roundDiv n (unit n) * unit n

/-- The integer part of the double next to a quotient. The shift makes the quotient so large that
it has at least 53 bits before the point. -/
def truncDiv (x y : ℕ) : ℕ :=
  let shift := 53 + Nat.log2 y - Nat.log2 x
  let scaled := x * 2 ^ shift
  let ulp := unit (scaled / y)
  roundDiv scaled (y * ulp) * ulp / 2 ^ shift

/-- The number is a double. -/
def IsDouble (n : ℕ) : Prop := unit n ∣ n

/-! ## Bounds -/

theorem unit_pos (n : ℕ) : 0 < unit n := Nat.two_pow_pos _

theorem div_le_roundDiv (a b : ℕ) : a / b ≤ roundDiv a b := by
  simp only [roundDiv]
  split_ifs <;> omega

/-- Rounding does not lead past an integer. -/
theorem le_roundDiv {a b k : ℕ} (positive : 0 < b) (above : k * b ≤ a) : k ≤ roundDiv a b :=
  ((Nat.le_div_iff_mul_le positive).mpr above).trans (div_le_roundDiv a b)

theorem roundDiv_le {a b k : ℕ} (positive : 0 < b) (below : a ≤ k * b) : roundDiv a b ≤ k := by
  rcases Nat.lt_or_ge (a / b) k with less | reaches
  · simp only [roundDiv]
    split_ifs <;> omega
  · have equal : a = k * b := le_antisymm below ((Nat.le_div_iff_mul_le positive).mp reaches)
    simp only [roundDiv, equal, Nat.mul_mod_left, Nat.mul_div_cancel _ positive, mul_zero,
      if_pos positive, le_refl]

theorem two_pow_log2_le {n : ℕ} (positive : 0 < n) : 2 ^ Nat.log2 n ≤ n :=
  Nat.log2_self_le positive.ne'

theorem lt_two_pow_log2_succ (n : ℕ) : n < 2 ^ (Nat.log2 n + 1) := Nat.lt_log2_self

/-- From 2 ^ 52 on, a number has at least 2 ^ 52 of its units and less than 2 ^ 53. -/
theorem unit_bounds {n : ℕ} (large : 52 ≤ Nat.log2 n) (positive : 0 < n) :
    2 ^ 52 * unit n ≤ n ∧ n < 2 ^ 53 * unit n := by
  rw [unit, ← pow_add, ← pow_add]
  constructor
  · rw [Nat.add_sub_cancel' large]
    exact two_pow_log2_le positive
  · have exponent : 53 + (Nat.log2 n - 52) = Nat.log2 n + 1 := by omega
    rw [exponent]
    exact lt_two_pow_log2_succ n

theorem log2_lt_of_lt {n k : ℕ} (positive : 0 < n) (less : n < 2 ^ k) : Nat.log2 n < k :=
  (Nat.log2_lt positive.ne').mpr less

theorem le_log2_of_le {n k : ℕ} (reaches : 2 ^ k ≤ n) : k ≤ Nat.log2 n :=
  (Nat.le_log2 (Nat.two_pow_pos k |>.trans_le reaches).ne').mpr reaches

@[simp]
theorem round_zero : round 0 = 0 := by decide

/-- Rounding gives a double. -/
theorem isDouble_round (n : ℕ) : IsDouble (round n) := by
  by_cases small : Nat.log2 n < 52
  · have isOne : unit n = 1 := by rw [unit, Nat.sub_eq_zero_of_le small.le, pow_zero]
    have same : round n = n := by
      rw [round, isOne, mul_one]
      refine le_antisymm (roundDiv_le one_pos (by omega)) (le_roundDiv one_pos (by omega))
    rw [same, IsDouble, isOne]
    exact one_dvd n
  · have large : 52 ≤ Nat.log2 n := Nat.not_lt.mp small
    have positive : 0 < n := by
      rcases Nat.eq_zero_or_pos n with rfl | positive
      · exact absurd large (by decide)
      · exact positive
    obtain ⟨low, high⟩ := unit_bounds large positive
    have upper : round n ≤ 2 ^ 53 * unit n :=
      Nat.mul_le_mul_right _ (roundDiv_le (unit_pos n) high.le)
    have top : 2 ^ 53 * unit n = 2 ^ (Nat.log2 n + 1) := by
      rw [unit, ← pow_add]
      congr 1
      omega
    rcases upper.lt_or_eq with strict | carries
    · have lower : 2 ^ 52 * unit n ≤ round n :=
        Nat.mul_le_mul_right _ (le_roundDiv (unit_pos n) low)
      have isUnit : unit (round n) = unit n := by
        have roundPositive : 0 < round n := lt_of_lt_of_le (by have := unit_pos n; omega) lower
        have upperLog := log2_lt_of_lt roundPositive (top ▸ strict)
        have bottom : 2 ^ 52 * unit n = 2 ^ Nat.log2 n := by
          rw [unit, ← pow_add, Nat.add_sub_cancel' large]
        have lowerLog := le_log2_of_le (bottom ▸ lower)
        rw [unit, unit, show Nat.log2 (round n) = Nat.log2 n by omega]
      rw [IsDouble, isUnit]
      exact Dvd.intro_left _ rfl
    · rw [IsDouble, carries, top, unit, Nat.log2_two_pow]
      exact pow_dvd_pow 2 (Nat.sub_le _ _)

/-- A smaller double is smaller by at least one part in 2 ^ 53. -/
theorem mul_le_mul_of_lt {x y : ℕ} (isDouble : IsDouble x) (isDouble' : IsDouble y)
    (less : x < y) : 2 ^ 53 * x ≤ (2 ^ 53 - 1) * y := by
  have positive : 0 < y := by omega
  rcases Nat.eq_zero_or_pos x with rfl | positive'
  · omega
  have logs : Nat.log2 x ≤ Nat.log2 y := by
    by_contra! smaller
    have low := two_pow_log2_le positive'
    have high := lt_two_pow_log2_succ y
    have powers : 2 ^ (Nat.log2 y + 1) ≤ 2 ^ Nat.log2 x := Nat.pow_le_pow_right two_pos smaller
    omega
  by_cases small : Nat.log2 y < 53
  · -- Below 2 ^ 53 the difference of two integers is large enough.
    have high : 2 ^ (Nat.log2 y + 1) ≤ 2 ^ 53 := Nat.pow_le_pow_right two_pos (by omega)
    have below := lt_two_pow_log2_succ y
    omega
  · obtain ⟨-, highY⟩ := unit_bounds (by omega : 52 ≤ Nat.log2 y) positive
    obtain ⟨n, isY⟩ := isDouble'
    rcases logs.lt_or_eq with smaller | same
    · have powers : 2 ^ (Nat.log2 x + 1) ≤ 2 ^ Nat.log2 y := Nat.pow_le_pow_right two_pos smaller
      have low := two_pow_log2_le positive
      by_cases tiny : Nat.log2 x < 52
      · have high := lt_two_pow_log2_succ x
        have bound : 2 ^ (Nat.log2 x + 1) ≤ 2 ^ 52 := Nat.pow_le_pow_right two_pos (by omega)
        omega
      · obtain ⟨-, highX⟩ := unit_bounds (by omega : 52 ≤ Nat.log2 x) positive'
        obtain ⟨m, isX⟩ := isDouble
        have significand : m + 1 ≤ 2 ^ 53 := by
          by_contra! exceeds
          have grows := Nat.mul_le_mul_left (unit x) (Nat.le_of_lt_succ exceeds)
          omega
        have scaled := Nat.mul_le_mul_left (unit x) significand
        have top : 2 ^ 53 * unit x = 2 ^ (Nat.log2 x + 1) := by
          rw [unit, ← pow_add]
          congr 1
          omega
        have bounded : x + unit x ≤ 2 ^ 53 * unit x := by
          rw [mul_add, mul_one, ← isX] at scaled
          omega
        omega
    · have sameUnit : unit x = unit y := by rw [unit, unit, same]
      obtain ⟨m, isX⟩ := isDouble
      rw [sameUnit] at isX
      have products : unit y * m < unit y * n := by
        rw [← isX, ← isY]
        exact less
      have significands : m + 1 ≤ n := Nat.lt_of_mul_lt_mul_left products
      have scaled := Nat.mul_le_mul_left (unit y) significands
      rw [mul_add, mul_one, ← isX, ← isY] at scaled
      omega

/-! ## Quotients -/

/-- The scaled dividend of a quotient fills 52 bits at least. -/
theorem two_pow_mul_le_scaled {x y : ℕ} (positive : 0 < x) :
    2 ^ 52 * y ≤ x * 2 ^ (53 + Nat.log2 y - Nat.log2 x) := by
  have low := two_pow_log2_le positive
  have high := lt_two_pow_log2_succ y
  calc 2 ^ 52 * y ≤ 2 ^ 52 * 2 ^ (Nat.log2 y + 1) := Nat.mul_le_mul_left _ high.le
    _ = 2 ^ (53 + Nat.log2 y) := by
        rw [← pow_add]
        congr 1
        omega
    _ ≤ 2 ^ (Nat.log2 x + (53 + Nat.log2 y - Nat.log2 x)) :=
        Nat.pow_le_pow_right two_pos (by omega)
    _ ≤ x * 2 ^ (53 + Nat.log2 y - Nat.log2 x) := by
        rw [pow_add]
        exact Nat.mul_le_mul_right _ low

/-- A quotient that reaches one is not rounded below it. -/
theorem one_le_truncDiv {x y : ℕ} (positive : 0 < y) (reaches : y ≤ x) : 1 ≤ truncDiv x y := by
  simp only [truncDiv]
  set shift := 53 + Nat.log2 y - Nat.log2 x
  have scaled : 2 ^ shift * y ≤ x * 2 ^ shift := by
    rw [mul_comm]
    exact Nat.mul_le_mul_right _ reaches
  have wide : 2 ^ 52 * y ≤ x * 2 ^ shift := two_pow_mul_le_scaled (positive.trans_le reaches)
  rw [Nat.one_le_div_iff (Nat.two_pow_pos shift)]
  have quotient : 2 ^ 52 ≤ x * 2 ^ shift / y := (Nat.le_div_iff_mul_le positive).mpr wide
  have ulpPositive := unit_pos (x * 2 ^ shift / y)
  have large : 52 ≤ Nat.log2 (x * 2 ^ shift / y) := le_log2_of_le quotient
  obtain ⟨low, -⟩ := unit_bounds large (by omega)
  obtain ⟨exponent, isUlp⟩ : ∃ exponent, unit (x * 2 ^ shift / y) = 2 ^ exponent := ⟨_, rfl⟩
  rw [isUlp] at ulpPositive low ⊢
  rcases Nat.le_total exponent shift with fine | coarse
  · -- One is a multiple of the unit.
    obtain ⟨steps, isShift⟩ : ∃ steps, shift = exponent + steps := ⟨shift - exponent, by omega⟩
    rw [isShift, pow_add] at scaled ⊢
    rw [mul_comm (2 ^ exponent)]
    refine Nat.mul_le_mul_right _ (le_roundDiv (Nat.mul_pos positive ulpPositive) ?_)
    calc 2 ^ steps * (y * 2 ^ exponent) = 2 ^ exponent * 2 ^ steps * y := by ring
      _ ≤ x * (2 ^ exponent * 2 ^ steps) := scaled
      _ = x * (2 ^ steps * 2 ^ exponent) := by ring
  · -- The unit is larger than one.
    have power : 2 ^ shift ≤ 2 ^ exponent := Nat.pow_le_pow_right two_pos coarse
    refine power.trans (Nat.le_mul_of_pos_left _ ?_)
    refine le_roundDiv (k := 1) (Nat.mul_pos positive ulpPositive) ?_
    have product := Nat.div_mul_le_self (x * 2 ^ shift) y
    calc 1 * (y * 2 ^ exponent) = 2 ^ exponent * y := by ring
      _ ≤ x * 2 ^ shift / y * y := Nat.mul_le_mul_right _ (by omega)
      _ ≤ x * 2 ^ shift := product

/-- A quotient of doubles below one is not rounded up to it. -/
theorem truncDiv_eq_zero {x y : ℕ} (isDouble : IsDouble x) (isDouble' : IsDouble y)
    (less : x < y) : truncDiv x y = 0 := by
  have positive : 0 < y := by omega
  have gap := mul_le_mul_of_lt isDouble isDouble' less
  simp only [truncDiv]
  set shift := 53 + Nat.log2 y - Nat.log2 x with isShift
  rw [Nat.div_eq_zero_iff]
  right
  have wide : 53 ≤ shift := by
    have logs : Nat.log2 x ≤ Nat.log2 y := by
      by_contra! smaller
      have xPositive : 0 < x := by
        rcases Nat.eq_zero_or_pos x with rfl | xPositive
        · exact absurd smaller (Nat.not_lt_zero _)
        · exact xPositive
      have low := two_pow_log2_le xPositive
      have high := lt_two_pow_log2_succ y
      have powers : 2 ^ (Nat.log2 y + 1) ≤ 2 ^ Nat.log2 x := Nat.pow_le_pow_right two_pos smaller
      omega
    omega
  have below : x * 2 ^ shift / y < 2 ^ shift := by
    rw [Nat.div_lt_iff_lt_mul positive, mul_comm]
    exact Nat.mul_lt_mul_of_pos_left less (Nat.two_pow_pos shift)
  -- Below one the unit is at most one part in 2 ^ 53.
  obtain ⟨exponent, isUlp, inside⟩ : ∃ exponent, unit (x * 2 ^ shift / y) = 2 ^ exponent ∧
      exponent + 53 ≤ shift := by
    refine ⟨_, rfl, ?_⟩
    rcases Nat.eq_zero_or_pos (x * 2 ^ shift / y) with zero | quotientPositive
    · rw [zero, Nat.log2_zero]
      omega
    · have log := log2_lt_of_lt quotientPositive below
      omega
  rw [isUlp]
  obtain ⟨steps, isSum⟩ : ∃ steps, shift = steps + 53 + exponent :=
    ⟨shift - 53 - exponent, by omega⟩
  have rounded : roundDiv (x * 2 ^ shift) (y * 2 ^ exponent) ≤ (2 ^ 53 - 1) * 2 ^ steps := by
    refine roundDiv_le (Nat.mul_pos positive (Nat.two_pow_pos _)) ?_
    calc x * 2 ^ shift = 2 ^ 53 * x * (2 ^ steps * 2 ^ exponent) := by
          rw [isSum, pow_add, pow_add]
          ring
      _ ≤ (2 ^ 53 - 1) * y * (2 ^ steps * 2 ^ exponent) := Nat.mul_le_mul_right _ gap
      _ = (2 ^ 53 - 1) * 2 ^ steps * (y * 2 ^ exponent) := by ring
  calc roundDiv (x * 2 ^ shift) (y * 2 ^ exponent) * 2 ^ exponent
      ≤ (2 ^ 53 - 1) * 2 ^ steps * 2 ^ exponent := Nat.mul_le_mul_right _ rounded
    _ < 2 ^ 53 * 2 ^ steps * 2 ^ exponent := by
        refine Nat.mul_lt_mul_of_pos_right ?_ (Nat.two_pow_pos _)
        exact Nat.mul_lt_mul_of_pos_right (by decide) (Nat.two_pow_pos _)
    _ = 2 ^ shift := by
        rw [isSum, pow_add, pow_add]
        ring

/-- A quotient of doubles reaches one precisely if the dividend reaches the divisor. -/
theorem truncDiv_pos_iff {x y : ℕ} (isDouble : IsDouble x) (isDouble' : IsDouble y)
    (positive : 0 < y) : 0 < truncDiv x y ↔ y ≤ x := by
  constructor
  · intro reaches
    by_contra! less
    rw [truncDiv_eq_zero isDouble isDouble' less] at reaches
    exact lt_irrefl 0 reaches
  · exact one_le_truncDiv positive

theorem round_pos {n : ℕ} (positive : 0 < n) : 0 < round n := by
  refine Nat.mul_pos (le_roundDiv (unit_pos n) ?_) (unit_pos n)
  have power : unit n ≤ 2 ^ Nat.log2 n := Nat.pow_le_pow_right two_pos (Nat.sub_le _ _)
  rw [Nat.succ_eq_add_one, zero_add, one_mul]
  exact power.trans (two_pow_log2_le positive)

end Datamime.Math.Binary64
