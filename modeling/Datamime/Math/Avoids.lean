/-
# Faults that do not happen

A fallible computation avoids a kind of fault if it never ends in one of them, whatever else
it ends in. The property is passed through a sequence of calls: what a later call may rely on
is that the earlier ones returned.
-/

import Datamime.Fault

namespace Datamime.Math

universe u v

variable {ε : Type u} {α β : Type v} {bad : ε → Prop}

/-- The computation does not end in a bad fault. -/
def Avoids (bad : ε → Prop) (result : Except ε α) : Prop :=
  ∀ fault, result = .error fault → ¬ bad fault

theorem avoids_ok (value : α) : Avoids bad (.ok value : Except ε α) := nofun

theorem avoids_error {fault : ε} (harmless : ¬ bad fault) :
    Avoids bad (.error fault : Except ε α) := by
  intro other same
  cases same
  exact harmless

theorem avoids_of_eq_ok {result : Except ε α} {value : α} (returned : result = .ok value) :
    Avoids bad result := returned ▸ avoids_ok value

/-- A sequence avoids a fault if its first call does, and the rest does once that returned. -/
theorem Avoids.bind {first : Except ε α} {rest : α → Except ε β} (avoids : Avoids bad first)
    (later : ∀ value, first = .ok value → Avoids bad (rest value)) :
    Avoids bad (first >>= rest) := by
  cases isFirst : first with
  | ok value => exact later value isFirst
  | error fault => exact avoids_error (avoids fault isFirst)

/-- A conditional call avoids a fault if both of its branches do. -/
theorem avoids_ite {condition : Prop} [Decidable condition] {first second : Except ε α}
    (holds : condition → Avoids bad first) (fails : ¬ condition → Avoids bad second) :
    Avoids bad (if condition then first else second) := by
  split
  · exact holds ‹_›
  · exact fails ‹_›

/-- A loop avoids a fault if each of its rounds does. -/
theorem avoids_foldlM {round : β → α → Except ε β} {xs : List α}
    (each : ∀ st, ∀ x ∈ xs, Avoids bad (round st x)) (st : β) :
    Avoids bad (xs.foldlM round st) := by
  induction xs generalizing st with
  | nil => exact avoids_ok st
  | cons x rest ih =>
      rw [List.foldlM_cons]
      refine (each st x List.mem_cons_self).bind fun next _ => ?_
      exact ih (fun st x listed => each st x (List.mem_cons_of_mem _ listed)) next

end Datamime.Math
