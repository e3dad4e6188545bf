/-
# Exact values of floating-point expressions

The programs under study compute with doubles. Read exactly, an expression over
finite doubles is a rational number unless it divides by zero: then it is one of
the two infinities, or not a number at all. This carrier keeps those outcomes
and the rules by which they spread, and idealizes everything else to exact
rational arithmetic.
-/

import Mathlib.Data.Rat.Defs
import Mathlib.Tactic

namespace Datamime.Math

/-- A rational number, an infinity or not-a-number. -/
inductive ERat
  | num (q : ℚ)
  | inf (negative : Bool)
  | nan
  deriving DecidableEq

namespace ERat

/-- Not-a-number spreads, and opposite infinities do not cancel. -/
def add : ERat → ERat → ERat
  | num a, num b => num (a + b)
  | inf s, num _ => inf s
  | num _, inf s => inf s
  | inf s, inf t => if s = t then inf s else nan
  | _, _ => nan

/-- Division by zero is an infinity, except that zero by zero is not a number. -/
def div : ERat → ERat → ERat
  | num a, num b =>
      if b = 0 then if a = 0 then nan else inf (decide (a < 0)) else num (a / b)
  | num _, inf _ => num 0
  | inf s, num b => inf (s != decide (b < 0))
  | _, _ => nan

/-- Zero times an infinity is not a number. -/
def mul : ERat → ERat → ERat
  | num a, num b => num (a * b)
  | inf s, num b => if b = 0 then nan else inf (s != decide (b < 0))
  | num a, inf s => if a = 0 then nan else inf (s != decide (a < 0))
  | inf s, inf t => inf (s != t)
  | _, _ => nan

/-- The order of floating-point values: nothing compares with not-a-number. -/
def lt : ERat → ERat → Bool
  | num a, num b => a < b
  | inf s, num _ => s
  | num _, inf s => !s
  | inf s, inf t => s && !t
  | _, _ => false

/-- The comparison `<=`. -/
def le : ERat → ERat → Bool
  | num a, num b => a ≤ b
  | inf s, num _ => s
  | num _, inf s => !s
  | inf s, inf t => s || !t
  | _, _ => false

def neg : ERat → ERat
  | num a => num (-a)
  | inf s => inf (!s)
  | nan => nan

instance : Add ERat := ⟨add⟩

instance : Neg ERat := ⟨neg⟩

instance : Div ERat := ⟨div⟩

instance : Mul ERat := ⟨mul⟩

instance : Zero ERat := ⟨num 0⟩

/-- `std::min`: the second argument only if it is strictly smaller. -/
def stdMin (a b : ERat) : ERat := if lt b a then b else a

/-- `std::max`: the second argument only if it is strictly larger. -/
def stdMax (a b : ERat) : ERat := if lt a b then b else a

/-- The test `isnan`. -/
def isNan : ERat → Bool
  | nan => true
  | _ => false

@[simp] theorem isNan_num (q : ℚ) : isNan (num q) = false := rfl

@[simp] theorem isNan_nan : isNan nan = true := rfl

@[simp] theorem num_add_num (a b : ℚ) : num a + num b = num (a + b) := rfl

@[simp] theorem nan_add (a : ERat) : nan + a = nan := by cases a <;> rfl

@[simp] theorem add_nan (a : ERat) : a + nan = nan := by cases a <;> rfl

theorem num_div_num {a b : ℚ} (nonzero : b ≠ 0) : num a / num b = num (a / b) := if_neg nonzero

@[simp] theorem num_zero_div_num_zero : num 0 / num 0 = nan := rfl

@[simp] theorem nan_div (a : ERat) : nan / a = nan := by cases a <;> rfl

/-! ## The order -/

theorem le_self_iff {a : ERat} : le a a = true ↔ a ≠ nan := by
  cases a with
  | num q => simp [le]
  | inf s => cases s <;> simp [le]
  | nan => simp [le]

/-- The order along which a curve of misses falls. -/
def AtMost (a b : ERat) : Prop := le a b = true

/-- The order along which a curve of instructions per cycle falls, that is, rises. -/
def AtLeast (a b : ERat) : Prop := le b a = true

theorem atMost_self_iff {a : ERat} : AtMost a a ↔ a ≠ nan := le_self_iff

theorem atLeast_self_iff {a : ERat} : AtLeast a a ↔ a ≠ nan := le_self_iff

theorem le_trans {a b c : ERat} (first : le a b = true) (second : le b c = true) :
    le a c = true := by
  cases a <;> cases b <;> cases c <;> simp_all [le]
  · exact first.trans second
  · grind

theorem ne_nan_of_le {a b : ERat} (related : le a b = true) : a ≠ nan ∧ b ≠ nan := by
  cases a <;> cases b <;> simp_all [le]

theorem le_of_lt {a b : ERat} (less : lt a b = true) : le a b = true := by
  cases a <;> cases b <;> simp_all [le, lt]
  exact less.le

theorem le_of_not_lt {a b : ERat} (isOrdered : a ≠ nan) (alsoOrdered : b ≠ nan)
    (notLess : lt b a = false) : le a b = true := by
  cases a <;> cases b <;> simp_all [le, lt]
  grind

theorem eq_of_le_of_not_lt {a b : ERat} (related : le a b = true) (notLess : lt a b = false) :
    a = b := by
  cases a <;> cases b <;> simp_all [le, lt]
  · exact le_antisymm related notLess
  · grind

theorem lt_neg_neg (a b : ERat) : lt (-a) (-b) = lt b a := by
  change lt (neg a) (neg b) = lt b a
  cases a <;> cases b <;> simp [neg, lt, Bool.and_comm]

end ERat

end Datamime.Math
