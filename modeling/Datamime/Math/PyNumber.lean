/-
# Numbers of a scripting language

A number is an integer or a double. An integer prints in decimal. A double prints as the
shortest text that is read back as the same double, and always with a point, an exponent or
a name that no integer prints. What is computed with doubles stays open here: nothing below
depends on it.
-/

import Datamime.Math.Text

namespace Datamime.Math

/-- The doubles, as they are printed, read and computed with. -/
structure Doubles where
  Double : Type
  repr : Double → List Char
  /-- `float(text)`. -/
  read? : List Char → Option Double
  /-- `float(n)`: the double that is nearest to an integer. -/
  ofInt : ℤ → Double
  /-- `int(x)`. -/
  toInt : Double → ℤ
  mul : Double → Double → Double
  sub : Double → Double → Double
  isPositive : Double → Bool
  /-- Round to two places, in decimal. -/
  toHundredths : Double → Double
  read?_repr : ∀ x, read? (repr x) = some x
  read?_ofInt : ∀ n, read? (Text.ofInt n) = some (ofInt n)
  toInt_ofInt : ∀ n : ℤ, |n| ≤ 2 ^ 53 → toInt (ofInt n) = n
  isWord_repr : ∀ x, Text.IsWord (repr x)
  comma_not_mem_repr : ∀ x, ',' ∉ repr x
  repr_ne_ofInt : ∀ x n, repr x ≠ Text.ofInt n

/-- A number: an integer or a double. -/
inductive PyNumber (doubles : Doubles)
  | int (n : ℤ)
  | float (x : doubles.Double)

namespace PyNumber

variable {doubles : Doubles}

/-- `str(value)`. -/
def str : PyNumber doubles → List Char
  | int n => Text.ofInt n
  | float x => doubles.repr x

/-- `float(value)`. -/
def toFloat : PyNumber doubles → doubles.Double
  | int n => doubles.ofInt n
  | float x => x

/-- `int(value)`. -/
def toInt : PyNumber doubles → ℤ
  | int n => n
  | float x => doubles.toInt x

/-- `first * second`. -/
def mul : PyNumber doubles → PyNumber doubles → PyNumber doubles
  | int m, int n => int (m * n)
  | first, second => float (doubles.mul first.toFloat second.toFloat)

/-- `first - second`. -/
def sub : PyNumber doubles → PyNumber doubles → PyNumber doubles
  | int m, int n => int (m - n)
  | first, second => float (doubles.sub first.toFloat second.toFloat)

/-- `0 < value`. -/
def isPositive : PyNumber doubles → Bool
  | int n => 0 < n
  | float x => doubles.isPositive x

def isFloat : PyNumber doubles → Bool
  | int _ => false
  | float _ => true

/-- `first == second`: an integer equals a double that has exactly its value. -/
def Same : PyNumber doubles → PyNumber doubles → Prop
  | int m, int n => m = n
  | float x, float y => x = y
  | int n, float x => x = doubles.ofInt n ∧ doubles.toInt x = n
  | float x, int n => x = doubles.ofInt n ∧ doubles.toInt x = n

/-- A number that is printed can be read as a double. -/
@[simp]
theorem read?_str (value : PyNumber doubles) : doubles.read? value.str = some value.toFloat := by
  cases value with
  | int n => exact doubles.read?_ofInt n
  | float x => exact doubles.read?_repr x

theorem isWord_str (value : PyNumber doubles) : Text.IsWord value.str := by
  cases value with
  | int n => exact Text.isWord_ofInt n
  | float x => exact doubles.isWord_repr x

theorem comma_not_mem_str (value : PyNumber doubles) : ',' ∉ value.str := by
  cases value with
  | int n => exact Text.comma_not_mem_ofInt n
  | float x => exact doubles.comma_not_mem_repr x

/-- Equal numbers are nearest to the same double. -/
theorem Same.toFloat_eq {first second : PyNumber doubles} (same : first.Same second) :
    first.toFloat = second.toFloat := by
  cases first with
  | int m =>
      cases second with
      | int n => exact congrArg doubles.ofInt same
      | float x => exact same.1.symm
  | float x =>
      cases second with
      | int n => exact same.1
      | float y => exact same

/-- The double that a number is nearest to equals it, unless it is a large integer. -/
theorem same_float_toFloat {value : PyNumber doubles}
    (small : ∀ n, value = int n → |n| ≤ 2 ^ 53) : value.Same (float value.toFloat) := by
  cases value with
  | int n => exact ⟨rfl, doubles.toInt_ofInt n (small n rfl)⟩
  | float x => rfl

/-- The text of a number tells whether it is a double. -/
theorem isFloat_of_str_eq {value : PyNumber doubles} {x : doubles.Double}
    (same : value.str = (float x).str) : value.isFloat = true := by
  cases value with
  | int n => exact absurd same.symm (doubles.repr_ne_ofInt x n)
  | float y => rfl

/-- So does the text of a product with an integer. -/
theorem isFloat_of_str_mul_eq {value : PyNumber doubles} {x : doubles.Double} {k : ℤ}
    (same : (value.mul (int k)).str = ((float x).mul (int k)).str) : value.isFloat = true := by
  cases value with
  | int n => exact absurd same.symm (doubles.repr_ne_ofInt _ _)
  | float y => rfl

theorem eq_float_of_isFloat {value : PyNumber doubles} (isFloat : value.isFloat = true) :
    value = float value.toFloat := by
  cases value with
  | int n => cases isFloat
  | float x => rfl

end PyNumber

/-! ## Doubles with whole values -/

/-- A whole number with the text of a double. -/
def wholeRepr (n : ℤ) : List Char := Text.ofInt n ++ ['.', '0']

/-- Read a whole number, with or without the point. -/
def wholeRead? (text : List Char) : Option ℤ :=
  match text.reverse with
  | '0' :: '.' :: rest => Text.toInt? rest.reverse
  | _ => Text.toInt? text

theorem wholeRead?_repr (n : ℤ) : wholeRead? (wholeRepr n) = some n := by
  rw [wholeRead?, wholeRepr, List.reverse_append]
  show Text.toInt? (Text.ofInt n).reverse.reverse = some n
  rw [List.reverse_reverse, Text.toInt?_ofInt]

theorem wholeRead?_ofInt (n : ℤ) : wholeRead? (Text.ofInt n) = some n := by
  rw [wholeRead?]
  split
  · rename_i rest shape
    have isMember : '.' ∈ Text.ofInt n := by
      rw [← List.mem_reverse, shape]
      simp
    exact absurd isMember (Text.point_not_mem_ofInt n)
  · exact Text.toInt?_ofInt n

/-- The doubles with whole values up to the size that all whole numbers have a double. -/
def wholeDoubles : Doubles where
  Double := ℤ
  repr := wholeRepr
  read? := wholeRead?
  ofInt := id
  toInt := id
  mul := (· * ·)
  sub := (· - ·)
  isPositive := fun n => 0 < n
  toHundredths := id
  read?_repr := wholeRead?_repr
  read?_ofInt := wholeRead?_ofInt
  toInt_ofInt := fun _ _ => rfl
  isWord_repr := fun n => by
    obtain ⟨notEmpty, plain⟩ := Text.isWord_ofInt n
    refine ⟨by simp [wholeRepr], fun c isMember => ?_⟩
    rcases List.mem_append.mp isMember with inside | isPoint
    · exact plain c inside
    · have isLast : c = '.' ∨ c = '0' := by simpa using isPoint
      rcases isLast with rfl | rfl
      · decide
      · decide
  comma_not_mem_repr := fun n isMember => by
    rcases List.mem_append.mp isMember with inside | isPoint
    · exact Text.comma_not_mem_ofInt n inside
    · exact absurd isPoint (by decide)
  repr_ne_ofInt := fun x n same => by
    have isMember : '.' ∈ Text.ofInt n := by
      rw [← same]
      simp [wholeRepr]
    exact Text.point_not_mem_ofInt n isMember

end Datamime.Math
