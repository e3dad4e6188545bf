/-
# Steps that commute

Several parties take steps on a common state. When the steps of different parties commute, the order
in which they are taken does not matter: if one run ends where nobody can take a step, every run can
be continued to that same state, and all runs that end there have the same length. To know what all
interleavings do it is enough to follow one of them.
-/

import Datamime.Math.Run

namespace Datamime.Math

variable {σ π ε : Type*}

/-- Two parties that can both take a step can take them in either order, to the same effect. -/
def Commutes (step : σ → π → Except ε σ) : Prop :=
  ∀ ⦃state first second : σ⦄ ⦃p q : π⦄, p ≠ q → step state p = .ok first →
    step state q = .ok second → ∃ joined, step first q = .ok joined ∧ step second p = .ok joined

/-- No party can take a step. -/
def Final (step : σ → π → Except ε σ) (state : σ) : Prop :=
  ∀ p next, step state p ≠ .ok next

variable {step : σ → π → Except ε σ} {start state next last : σ} {p : π} {schedule early : List π}

/-- A step can be moved to the front of a run that ends where nobody can take one. -/
theorem Commutes.step_first (commutes : Commutes step) (isFinal : Final step last)
    (reached : run step start schedule = .ok last) (stepped : step start p = .ok next) :
    ∃ rest, run step next rest = .ok last ∧ rest.length + 1 = schedule.length := by
  induction schedule generalizing start next with
  | nil =>
      cases reached
      exact absurd stepped (isFinal p next)
  | cons q schedule ih =>
      obtain ⟨middle, stepped', onward⟩ := run_cons_eq_ok_iff.mp reached
      by_cases same : p = q
      · have isNext : next = middle := Except.ok.inj (stepped.symm.trans (same ▸ stepped'))
        exact ⟨schedule, isNext ▸ onward, rfl⟩
      · obtain ⟨joined, fromNext, fromMiddle⟩ := commutes same stepped stepped'
        obtain ⟨rest, toLast, length⟩ := ih onward fromMiddle
        refine ⟨q :: rest, ?_, ?_⟩
        · rw [run_cons_of_ok fromNext, toLast]
        · rw [List.length_cons, List.length_cons, length]

/-- Every run can be continued to the state where one run ends, and all runs to it are of one
length. -/
theorem Commutes.run_joins (commutes : Commutes step) (isFinal : Final step last)
    (reached : run step start schedule = .ok last) (run_early : run step start early = .ok state) :
    ∃ rest, run step state rest = .ok last ∧ early.length + rest.length = schedule.length := by
  induction early generalizing start schedule with
  | nil =>
      cases run_early
      exact ⟨schedule, reached, Nat.zero_add _⟩
  | cons p early ih =>
      obtain ⟨next, stepped, onward⟩ := run_cons_eq_ok_iff.mp run_early
      obtain ⟨later, toLast, length⟩ := commutes.step_first isFinal reached stepped
      obtain ⟨rest, joins, total⟩ := ih toLast onward
      refine ⟨rest, joins, ?_⟩
      rw [List.length_cons, ← length, ← total]
      omega

/-- There is only one state where a run can end. -/
theorem Commutes.final_unique (commutes : Commutes step) (isFinal : Final step last)
    (reached : run step start schedule = .ok last) (run_early : run step start early = .ok state)
    (ends : Final step state) : state = last := by
  obtain ⟨rest, joins, -⟩ := commutes.run_joins isFinal reached run_early
  cases rest with
  | nil => exact Except.ok.inj joins
  | cons p rest =>
      obtain ⟨next, stepped, -⟩ := run_cons_eq_ok_iff.mp joins
      exact absurd stepped (ends p next)

end Datamime.Math
