/-
# The ways of a sample

A sample pairs the ways of the slice in force with what the thread has used up since its
counters were remembered. But the handler compares the counters of the two signals before: it
reads those of its own phase last. So a sample counts the phase under its slice only if a signal
has read the counters under that slice and a later one has remembered them. The first two slices
of a plan are equal, which makes up for one signal. From the third slice on, a sample that is
collected at once pairs the ways of its slice with the phase under the slice before. All of this
is about the core that has the index of the thread for its number. It is the core that the thread
is pinned to if the first core belongs to the first memory node.
-/

import Datamime.Profiler.SampledCounters

namespace Datamime.Profiler

open Datamime.Math Datamime.Hardware

/-! ## The ways in force -/

/-- The number of ways that a core may fill. -/
def waysOf (msrs : Msrs) (core : ℕ) : ℕ := BitSet.size (effectiveMask msrs core)

/-- With a single profiled thread the turn is always its own, and within a round a sample of it
stores the ways that its core has. -/
structure Matched (monitor : Monitor) : Prop where
  turn : monitor.thrIdxProfiledGlobal = 0
  ways : monitor.monitorStartFlag = true →
    (monitor.currentlySampling 0).ways = waysOf monitor.msrs 0

section

variable {config : Config} {monitor next : Monitor} {tinfo after : ThreadInfo}

/-- A slice in force gives its core the ways that it samples. -/
theorem Installed.waysOf_eq (feasible : Feasible config) {slice : Slice}
    (installed : Installed config monitor next slice) :
    next.thrIdxProfiledGlobal = monitor.thrIdxProfiledGlobal ∧
      waysOf next.msrs monitor.thrIdxProfiledGlobal = numWaysBeingSampled slice.sampled ∧
      (next.currentlySampling monitor.thrIdxProfiledGlobal).ways =
        numWaysBeingSampled slice.sampled := by
  obtain ⟨-, isSlice, msrs, currentlySampling, set, rfl⟩ := installed
  have narrow := feasible.narrow slice (List.mem_of_getElem? isSlice)
  have applied := applied_of_setCachewaysToCores set
  refine ⟨rfl, ?_, congrArg CoreSampling.ways applied.sampling⟩
  show BitSet.size (effectiveMask msrs _) = _
  rw [applied.effectiveMask_profiled, size_getCbm (narrow.short.trans_le feasible.fits)]

theorem Installed.matched (feasible : Feasible config) {slice : Slice}
    (installed : Installed config monitor next slice)
    (turn : monitor.thrIdxProfiledGlobal = 0) : Matched next := by
  obtain ⟨sameTurn, ways, sampling⟩ := installed.waysOf_eq feasible
  rw [turn] at sameTurn ways sampling
  exact ⟨sameTurn, fun _ => sampling.trans ways.symm⟩

theorem ways_mark (monitor : Monitor) (tidx status core : ℕ) :
    ((monitor.mark tidx status).currentlySampling core).ways =
      (monitor.currentlySampling core).ways := by
  rw [Monitor.mark]
  dsimp only
  by_cases here : core = tidx
  · rw [here, Function.update_self]
  · rw [Function.update_of_ne here]

theorem Matched.mark (matched : Matched monitor) (tidx status : ℕ) :
    Matched (monitor.mark tidx status) :=
  ⟨matched.turn, fun isOpen => (ways_mark monitor tidx status 0).trans (matched.ways isOpen)⟩

theorem MonitorStep.matched (feasible : Feasible config) (single : config.numProfiledThreads = 1)
    (matched : Matched monitor) (step : MonitorStep config monitor tinfo next after) :
    Matched next := by
  cases step with
  | idles closed goesOn after saved => exact matched
  | passes invokes opensNone read => exact matched
  | opens opensRound read slice next installed => exact installed.matched feasible matched.turn
  | waits samples read position next sampled stored noTurn =>
      cases stored <;> exact matched.mark _ _
  | advances collects read position more slice next installed =>
      exact installed.matched feasible matched.turn
  | finishes collects read all logged next isLogged ended estimated estimates =>
      rw [isLogged] at ended
      cases ended with
      | handedOver more =>
          have more : monitor.thrIdxProfiledGlobal + 1 < config.numProfiledThreads := more
          rw [single] at more
          omega
      | closed last msrs shared => exact ⟨rfl, nofun⟩

end

/-! ## Runs of a single thread -/

/-- What the runs of a single thread keep about the ways. -/
structure Single (config : Config) (st : State) : Prop where
  unlogged : st.monitor.Unlogged
  holds : HoldsCache config.machine st.monitor
  matched : Matched st.monitor

section

variable {config : Config} {st next last : State} {event : Event} {events : List Event}

theorem Matched.served {words : List Word} {signal : Signal} {before : ThreadInfo}
    {group counted : EventGroup} {monitor : Monitor} {sampled after : ThreadInfo}
    (served : Served config st words signal before group counted monitor sampled after next)
    (matched : Matched monitor) :
    Matched next.monitor ∧ waysOf next.monitor.msrs 0 = waysOf monitor.msrs 0 := by
  obtain ⟨msrs, isMonitor, sameMasks⟩ := served.monitor
  have sameWays : waysOf msrs 0 = waysOf monitor.msrs 0 := congrArg BitSet.size (sameMasks 0)
  rw [isMonitor]
  exact ⟨⟨matched.turn, fun isOpen => (matched.ways isOpen).trans sameWays.symm⟩, sameWays⟩

theorem Single.systemStep (feasible : Feasible config) (one : config.numProfiledThreads = 1)
    (single : Single config st) (stepped : systemStep config st event = .ok next) :
    Single config next := by
  refine ⟨unlogged_systemStep single.unlogged stepped,
    holdsCache_systemStep feasible single.unlogged single.holds stepped, ?_⟩
  cases event with
  | wait wait =>
      rw [monitor_of_wait stepped]
      exact single.matched
  | phase words signal =>
      obtain ⟨before, group, counted, monitor, sampled, after, served⟩ :=
        served_of_systemStep single.unlogged stepped
      exact (Matched.served served (served.monitored.matched feasible one single.matched)).1

end

/-! ## Samples -/

section

variable {library : Interpolation} {machine : Machine} {args : Args} {launch : Launch}
  {config : Config} {start : State}

theorem single_of_main (started : main library machine args launch = .ok (config, start))
    (mrcMode : args.mrcEstMode = true) : Single config start := by
  obtain ⟨⟨plan, -, isConfig⟩, ⟨msrs, globals⟩, -⟩ := launched_of_main started
  have holds : HoldsCache machine start.monitor :=
    @holdsCache_of_run _ _ _ _ _ _ _ started mrcMode [] rfl
  refine ⟨?_, by rw [isConfig]; exact holds, ?_⟩
  · rw [globals]
    exact fun _ => rfl
  · rw [globals]
    exact ⟨rfl, nofun⟩

theorem one_of_main (started : main library machine args launch = .ok (config, start)) {tid : ℤ}
    (oneThread : args.profiledTids = [tid]) : config.numProfiledThreads = 1 := by
  obtain ⟨⟨plan, -, rfl⟩, -⟩ := launched_of_main started
  exact congrArg List.length oneThread

theorem single_of_run (started : main library machine args launch = .ok (config, start))
    (mrcMode : args.mrcEstMode = true) {tid : ℤ} (oneThread : args.profiledTids = [tid])
    {events : List Event} {st : State} (reached : run (systemStep config) start events = .ok st) :
    Single config st ∧ Led args st := by
  have feasible := feasible_of_main started
  have one := one_of_main started oneThread
  have single := @run_invariant _ _ _ (systemStep config) (Single config)
    (fun _ _ _ single stepped => single.systemStep feasible one stepped)
    start st events (single_of_main started mrcMode) reached
  exact ⟨single, led_of_run started reached⟩

/-- With a single thread there is only one that is profiled. -/
theorem Led.only {st : State} (led : Led args st) {tid : ℤ}
    (oneThread : args.profiledTids = [tid]) {other : ℤ} {tinfo : ThreadInfo}
    (profiled : st.Profiles other tinfo) : other = tid ∧ tinfo.tidx = 0 := by
  have position := (led.keyed other tinfo profiled).2
  rw [oneThread] at position
  have inside := (List.getElem?_eq_some_iff.mp position).1
  have isFirst : tinfo.tidx = 0 := Nat.lt_one_iff.mp inside
  rw [isFirst] at position
  exact ⟨(Option.some.inj position).symm, isFirst⟩

end

/-! ## The third slice -/

/-- One thread for ten phases, with a sampling round after the second one. -/
def tenPhases : Args := { threePhases with numPhases := 10 }

end Datamime.Profiler
