/-
# The profiler as a system

Two things drive the profiler once it is set up. The kernel counts down the budget of an
armed group at each overflow, appends records to its buffer and sends a signal, which the
handler serves. And the main thread learns that a thread stopped or is gone. A run is any
interleaving of these events.
-/

import Datamime.Math.Run
import Datamime.Profiler.Profile

namespace Datamime.Profiler

open Datamime.Math Datamime.Hardware

/-- An event that the profiler reacts to. -/
inductive Event
  /-- An overflow: the words that the kernel appended to the buffer of the group since the last
  one, and the signal. -/
  | phase (words : List Word) (signal : Signal)
  | wait (wait : Wait)

/-- Why a run cannot go on. -/
inductive Stop
  | fault (fault : Fault)
  /-- The group is not armed, so it does not overflow. -/
  | notArmed
  /-- `profile` has returned. -/
  | returned

/-- Count down the budget of a group. -/
def EventGroup.overflow (group : EventGroup) : Option EventGroup :=
  match group.refreshBudget with
  | none => some group
  | some 0 => none
  | some (budget + 1) => some { group with refreshBudget := some budget }

/-- The group that a descriptor belongs to. -/
def State.groupOf (st : State) (fd : ℤ) : Option EventGroup :=
  (st.tidMap.get? (st.threadOf fd)).bind fun tinfo => tinfo.eventGroups.get? fd

/-- A thread after a group of it overflowed. -/
def ThreadInfo.overflowed (tinfo : ThreadInfo) (fd : ℤ) (group : EventGroup)
    (words : List Word) : ThreadInfo :=
  { tinfo with
    eventGroups := tinfo.eventGroups.insert fd { group with buf := group.buf ++ words } }

/-- The part of the kernel in an overflow. The signals of a thread that the profiler has
forgotten still arrive. -/
def State.overflow (st : State) (fd : ℤ) (words : List Word) : Except Stop State :=
  match st.tidMap.get? (st.threadOf fd) with
  | none => .ok st
  | some tinfo =>
      match tinfo.eventGroups.get? fd with
      | none => .ok st
      | some group =>
          match group.overflow with
          | none => .error .notArmed
          | some counted => .ok { st with
              tidMap := st.tidMap.insert (st.threadOf fd) (tinfo.overflowed fd counted words) }

/-- `profile` has returned: only the array-scanning threads are left. -/
def State.Returned (st : State) : Prop := st.tidMap.size ≤ numScanThreads

instance (st : State) : Decidable st.Returned := inferInstanceAs (Decidable (_ ≤ _))

/-- A fault ends the run. -/
def orStop {α : Type} (result : Except Fault α) : Except Stop α :=
  match result with
  | .ok value => .ok value
  | .error fault => .error (.fault fault)

@[simp]
theorem orStop_eq_ok_iff {α : Type} {result : Except Fault α} {value : α} :
    orStop result = .ok value ↔ result = .ok value := by
  cases result <;> simp [orStop]

/-- One event of a run. -/
def systemStep (config : Config) (st : State) (event : Event) : Except Stop State :=
  if st.Returned then .error .returned
  else
    match event with
    | .phase words signal => do
        let st ← st.overflow signal.fd words
        orStop (sigthymeHandler config st signal)
    | .wait wait => orStop (profileStep st wait)

/-- A report of the kernel is one round of the loop, while the loop goes on. -/
theorem systemStep_wait_eq_ok_iff {config : Config} {st next : State} {wait : Wait} :
    systemStep config st (.wait wait) = .ok next ↔
      ¬ st.Returned ∧ profileStep st wait = .ok next := by
  unfold systemStep
  by_cases hasReturned : st.Returned
  · rw [if_pos hasReturned]
    exact iff_of_false nofun fun both => both.1 hasReturned
  · rw [if_neg hasReturned, and_iff_right hasReturned]
    exact orStop_eq_ok_iff

end Datamime.Profiler
