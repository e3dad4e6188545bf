/-
# Outcomes of fallible calls

A call returns a value or stops. An outcome says what holds of the value and what of the stop, and a
sequence of calls has the outcome of its last one. A loop that takes turns until one of them ends it
has an outcome if its turns keep an invariant and each of them leaves fewer turns to take.
-/

import Datamime.Math.Run
import Mathlib.Tactic

namespace Datamime.Math

universe u v

variable {ε : Type u} {α β σ : Type v}

/-- What holds of a call that returns, and of one that stops. -/
def Outcome (returns : α → Prop) (stops : ε → Prop) : Except ε α → Prop
  | .ok value => returns value
  | .error stop => stops stop

variable {returns : α → Prop} {stops : ε → Prop}

theorem Outcome.imp {weaker : α → Prop} {call : Except ε α} (outcome : Outcome returns stops call)
    (implied : ∀ value, call = .ok value → returns value → weaker value) :
    Outcome weaker stops call := by
  cases call with
  | ok value => exact implied value rfl outcome
  | error stop => exact outcome

theorem Outcome.bind {first : Except ε α} {rest : α → Except ε β} {atEnd : β → Prop}
    (outcome : Outcome returns stops first)
    (continued : ∀ value, returns value → Outcome atEnd stops (rest value)) :
    Outcome atEnd stops (first >>= rest) := by
  cases first with
  | ok value => exact continued value outcome
  | error stop => exact outcome

theorem Outcome.and {other : α → Prop} {call : Except ε α} (outcome : Outcome returns stops call)
    (also : Outcome other stops call) :
    Outcome (fun value => returns value ∧ other value) stops call := by
  cases call with
  | ok value => exact ⟨outcome, also⟩
  | error stop => exact outcome

theorem Outcome.of_ok {call : Except ε α} {value : α} (outcome : Outcome returns stops call)
    (returned : call = .ok value) : returns value := by
  rw [returned] at outcome
  exact outcome

/-- A call whose result passes a test. -/
theorem exists_of_any {call : Except ε α} {test : α → Bool}
    (passes : call.toOption.any test = true) : ∃ value, call = .ok value ∧ test value = true := by
  cases call with
  | ok value => exact ⟨value, rfl, passes⟩
  | error stop => cases passes

/-! ## Loops -/

/-- A loop that a turn ends by returning. It is followed for a number of turns. -/
def loop (endless : ε) (turn : σ → Except ε (σ × Bool)) : ℕ → σ → Except ε σ
  | 0, _ => .error endless
  | turns + 1, state => do
      let (next, returned) ← turn state
      if returned then return next else loop endless turn turns next

variable {endless : ε} {turn : σ → Except ε (σ × Bool)}

/-- A loop that returns has gone from each state to the next. -/
theorem loop_related {related : σ → σ → Prop}
    (turns_related : ∀ {state next isOver}, turn state = .ok (next, isOver) → related state next)
    (trans : ∀ {first second third}, related first second → related second third →
      related first third) {turns : ℕ} {state last : σ}
    (returned : loop endless turn turns state = .ok last) : related state last := by
  induction turns generalizing state with
  | zero => cases returned
  | succ turns ih =>
      rw [loop] at returned
      cases turned : turn state with
      | error stop =>
          rw [turned] at returned
          cases returned
      | ok taken =>
          rcases taken with ⟨next, isOver⟩
          rw [turned] at returned
          cases isOver with
          | true =>
              cases returned
              exact turns_related turned
          | false => exact trans (turns_related turned) (ih returned)

/-- A loop with enough turns does what its turns do. -/
theorem loop_outcome (good : σ → Prop) (turnsLeft : σ → ℕ) {atEnd : σ → Prop}
    (turns_keep : ∀ state, good state →
      Outcome (fun taken =>
        if taken.2 then atEnd taken.1 else good taken.1 ∧ turnsLeft taken.1 < turnsLeft state)
        stops (turn state))
    {turns : ℕ} {state : σ} (isGood : good state) (enough : turnsLeft state < turns) :
    Outcome atEnd stops (loop endless turn turns state) := by
  induction turns generalizing state with
  | zero => exact absurd enough (Nat.not_lt_zero _)
  | succ turns ih =>
      refine (turns_keep state isGood).bind ?_
      rintro ⟨next, isOver⟩ taken
      cases isOver with
      | true => exact taken
      | false =>
          obtain ⟨stillGood, fewer⟩ := taken
          exact ih stillGood (Nat.lt_of_lt_of_le fewer (Nat.le_of_lt_succ enough))

end Datamime.Math
