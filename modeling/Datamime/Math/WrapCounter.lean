/-
# Counters that wrap around

A counter of limited width shows the remainder of a running total. From two
readings a program can only recover the remainder of what was added in between:
less than one full turn is recovered exactly, full turns are lost.
-/

import Mathlib.Tactic

namespace Datamime.Math

/-- The increase from one reading to the next, taking a smaller reading for one wrap. -/
def wrapDelta (modulus last now : ℤ) : ℤ :=
  if now < last then (modulus - last) + now else now - last

/-- Two scaled readings show the remainder of what was added in between. -/
theorem wrapDelta_eq_mod {modulus : ℕ} (positive : 0 < modulus) (scale total added : ℕ) :
    wrapDelta (scale * modulus : ℕ) (scale * (total % modulus) : ℕ)
        (scale * ((total + added) % modulus) : ℕ) = (scale * (added % modulus) : ℕ) := by
  have split : (total + added) % modulus =
      if total % modulus + added % modulus < modulus then total % modulus + added % modulus
      else total % modulus + added % modulus - modulus := by
    rw [Nat.add_mod]
    split
    · rename_i small
      exact Nat.mod_eq_of_lt small
    · have first := Nat.mod_lt total positive
      have second := Nat.mod_lt added positive
      rw [Nat.mod_eq_sub_mod (by omega), Nat.mod_eq_of_lt (by omega)]
  have first := Nat.mod_lt total positive
  have second := Nat.mod_lt added positive
  rw [split]
  generalize total % modulus = last at *
  generalize added % modulus = gain at *
  rcases Nat.eq_zero_or_pos scale with rfl | scalePositive
  · simp [wrapDelta]
  split <;> rename_i wraps
  · have ordered : ¬ ((scale * (last + gain) : ℕ) : ℤ) < (scale * last : ℕ) := by
      rw [Nat.cast_lt, Nat.mul_lt_mul_left scalePositive]
      omega
    rw [wrapDelta, if_neg ordered]
    push_cast
    ring
  · have smaller : last + gain - modulus < last := by omega
    have ordered : ((scale * (last + gain - modulus) : ℕ) : ℤ) < (scale * last : ℕ) := by
      rw [Nat.cast_lt, Nat.mul_lt_mul_left scalePositive]
      exact smaller
    rw [wrapDelta, if_pos ordered]
    push_cast [Nat.cast_sub (not_lt.mp wraps)]
    ring

/-- What is added is recovered precisely when it is less than a full turn. -/
theorem mod_eq_self_iff {modulus : ℕ} (positive : 0 < modulus) {added : ℕ} :
    added % modulus = added ↔ added < modulus :=
  ⟨fun equal => equal ▸ Nat.mod_lt added positive, Nat.mod_eq_of_lt⟩

end Datamime.Math
