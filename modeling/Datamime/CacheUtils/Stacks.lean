/-
# Stacks of cache ways

The partitioning code keeps the ways of each application on a stack, in an array
of stacks. A stack is a list with its top first.
-/

import Datamime.Fault

namespace Datamime.CacheUtils

/-- The ways of one application, the top of the stack first. -/
abbrev Stack := List ℤ

/-- What the partitioning code must not do. -/
inductive Misuse
  /-- It read a curve outside its bounds. -/
  | curveBounds
  /-- It took from an empty stack. -/
  | emptyStack
  /-- It accessed the array of stacks outside its bounds. -/
  | arrayBounds
  /-- A loop did not end within the given number of rounds. -/
  | notFinished
  /-- It read a variable that has no value. -/
  | unassigned
  /-- It erased a character of an empty string. -/
  | emptyString
  deriving DecidableEq

/-- A stack of the array. -/
def stackAt (partitions : List Stack) (id : ℤ) : Except Misuse Stack :=
  if 0 ≤ id then
    match partitions[id.toNat]? with
    | some stack => .ok stack
    | none => .error .arrayBounds
  else .error .arrayBounds

/-- Replace a stack of the array. -/
def setStack (partitions : List Stack) (id : ℤ) (stack : Stack) : Except Misuse (List Stack) :=
  if 0 ≤ id ∧ id < partitions.length then .ok (partitions.set id.toNat stack)
  else .error .arrayBounds

/-- `top()` and `pop()`. -/
def pop : Stack → Except Misuse (ℤ × Stack)
  | [] => .error .emptyStack
  | way :: rest => .ok (way, rest)

section

variable {partitions : List Stack} {id : ℕ} {stack : Stack}

theorem stackAt_eq_ok (isStack : partitions[id]? = some stack) :
    stackAt partitions id = .ok stack := by
  rw [stackAt, if_pos (Int.natCast_nonneg id), Int.toNat_natCast, isStack]

theorem getElem?_of_stackAt (isStack : stackAt partitions id = .ok stack) :
    partitions[id]? = some stack := by
  rw [stackAt, if_pos (Int.natCast_nonneg id), Int.toNat_natCast] at isStack
  cases found : partitions[id]? with
  | none =>
      rw [found] at isStack
      cases isStack
  | some other =>
      rw [found] at isStack
      exact congrArg some (Except.ok.inj isStack)

theorem setStack_eq_ok (within : id < partitions.length) (stack : Stack) :
    setStack partitions id stack = .ok (partitions.set id stack) := by
  rw [setStack, if_pos ⟨Int.natCast_nonneg id, by exact_mod_cast within⟩, Int.toNat_natCast]

end

end Datamime.CacheUtils
